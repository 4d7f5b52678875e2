import Uncaught.Proofs.Data.Except
import Uncaught.Proofs.Database.Index
import Uncaught.Proofs.Hierarchy

/-
  What each stage of making a call graph does: the one field
  that it changes, and what that field holds then.

  Main declarations:
    * `Database.completeFacts_spec`
    * `Database.linkClasses_spec`
    * `Database.collectCalls_spec`
    * `Database.dispatchCalls_spec`
    * `Database.indexCallers_spec`
    * `Database.facts_of_runStage`
    * `Database.sameCallers_indexOver`
    * `Database.runStages_preserves`
    * `Database.build_spec`
    * `Database.build_preserves`
    * `Database.build_failure_eq_none_iff`
-/

namespace Uncaught

namespace Database

variable {db after : Database} {events : List Event}

------------------------------------------------------------
-- Facts And Classes
------------------------------------------------------------

/- Known methods without facts get bare ones. -/
theorem completeFacts_spec
    (hStage : db.completeFacts = .ok (after, events)) :
    ∃ facts, after = { db with facts } ∧
      ∀ s, facts.get? s =
        (db.facts.get? s).or
          (if s ∈ db.bound then some { signature := s }
            else none) := by
  cases hStage
  refine ⟨_, rfl, ?_⟩
  intro s
  rw [Table.get?_foldl_insert_keys]
  cases hFacts : db.facts.get? s with
  | none => simp [Table.contains, hFacts]
  | some f => simp [Table.contains, hFacts]

/- The hierarchy is made of the records of all classes. -/
theorem linkClasses_spec
    (hStage : db.linkClasses = .ok (after, events)) :
    ∃ records, db.records = .ok records ∧
      after =
        { db with hierarchy := some (.ofRecords records) } := by
  rcases bind_eq_ok_iff.mp hStage with
    ⟨records, hRecords, hAfter⟩
  cases hAfter
  exact ⟨records, hRecords, rfl⟩

/- The records are what the class bindings are read as. -/
theorem forall₂_records
    {records : List ClassRecord}
    (hRecords : db.records = .ok records) :
    List.Forall₂ (fun binding c => binding.read = .ok c)
      db.classes.values records := by
  apply forall₂_of_mapM_eq_ok
  unfold Database.records at hRecords
  cases hRead : db.classes.values.mapM ClassBinding.read with
  | error e => simp [hRead, Except.mapError] at hRecords
  | ok read =>
      rw [hRead] at hRecords
      cases hRecords
      rfl

theorem mem_records_iff
    {records : List ClassRecord}
    (hRecords : db.records = .ok records)
    (c : ClassRecord) :
    c ∈ records ↔
      ∃ name binding, db.classes.get? name = some binding ∧
        binding.read = .ok c := by
  have hAll := forall₂_records hRecords
  constructor
  · intro hMem
    rcases exists_of_mem_right hAll hMem with
      ⟨binding, hValue, hRead⟩
    rcases (Table.mem_values_iff _ _).mp hValue with
      ⟨name, hBinding⟩
    exact ⟨name, binding, hBinding, hRead⟩
  · rintro ⟨name, binding, hBinding, hRead⟩
    have hValue : binding ∈ db.classes.values :=
      (Table.mem_values_iff _ _).mpr ⟨name, hBinding⟩
    rcases exists_of_mem_left hAll hValue with
      ⟨c', hMem, hRead'⟩
    rw [hRead] at hRead'
    cases hRead'
    exact hMem

------------------------------------------------------------
-- Calls
------------------------------------------------------------

theorem nodup_added
    {α : Type}
    [DecidableEq α]
    {old : List α}
    (hNodup : old.Nodup)
    (new : List α) :
    (old ++ added old new).Nodup := by
  unfold added
  rw [List.nodup_append]
  refine ⟨hNodup, nodup_eraseDups _, ?_⟩
  intro a hOld b hNew hSame
  rw [List.mem_eraseDups, List.mem_filter] at hNew
  have hNotOld : b ∉ old := by simpa using hNew.2
  exact hNotOld (hSame ▸ hOld)

theorem mem_added
    {α : Type}
    [DecidableEq α]
    (old new : List α)
    (a : α) :
    a ∈ old ++ added old new ↔ a ∈ old ∨ a ∈ new := by
  simp only [added, List.mem_append, List.mem_eraseDups,
    List.mem_filter, decide_eq_true_eq]
  tauto

/- The written calls are those in the facts of a method. -/
theorem mem_writtenCalls_iff
    (db : Database)
    (e : CallEdge) :
    e ∈ db.writtenCalls ↔
      ∃ f, db.facts.get? e.caller = some f ∧
        e.callee ∈ f.calls := by
  simp only [writtenCalls, List.mem_flatMap, List.mem_map,
    Table.get?_eq_some_iff]
  constructor
  · rintro ⟨⟨caller, f⟩, hFacts, callee, hCall, rfl⟩
    exact ⟨f, hFacts, hCall⟩
  · rintro ⟨f, hFacts, hCall⟩
    exact ⟨(e.caller, f), hFacts, e.callee, hCall, rfl⟩

/- The written calls come to the ones that are there. -/
theorem collectCalls_spec
    (hStage : db.collectCalls = .ok (after, events)) :
    ∃ calls, after = { db with calls } ∧
      ∀ e, e ∈ calls ↔
        e ∈ db.calls ∨ e ∈ db.writtenCalls := by
  unfold collectCalls at hStage
  by_cases hFixed :
      (db.isSealed && !db.writtenCalls.isEmpty) = true
  · simp [hFixed] at hStage
  · simp only [hFixed, Bool.false_eq_true, if_false] at hStage
    cases hStage
    refine ⟨_, rfl, ?_⟩
    intro e
    exact mem_added db.calls db.writtenCalls e

/-
  A written call runs as itself or as a method that overrides
  the written one.
-/
theorem mem_dispatch_iff
    (h : Hierarchy)
    (call : CallEdge)
    (e : DispatchEdge) :
    e ∈ dispatch h call ↔
      e.caller = call.caller ∧ e.written = call.callee ∧
        (e.callee = call.callee ∨
          e.callee ∈
            h.overriding call.callee.owner call.callee) := by
  simp only [dispatch, List.mem_map, List.mem_insert_iff]
  constructor
  · rintro ⟨callee, hCallee, rfl⟩
    exact ⟨rfl, rfl, hCallee⟩
  · rintro ⟨hCaller, hWritten, hCallee⟩
    refine ⟨e.callee, hCallee, ?_⟩
    rw [← hCaller, ← hWritten]

/- The calls are dispatched over the hierarchy. -/
theorem dispatchCalls_spec
    (hStage : db.dispatchCalls = .ok (after, events)) :
    ∃ dispatches, after = { db with dispatches } ∧
      ∀ e, e ∈ dispatches ↔
        e ∈ db.dispatches ∨
          ∃ h, db.hierarchy = some h ∧
            ∃ call ∈ db.calls, e ∈ dispatch h call := by
  unfold dispatchCalls at hStage
  by_cases hNone : db.calls.isEmpty = true
  · simp only [hNone, if_true] at hStage
    cases hStage
    refine ⟨db.dispatches, rfl, ?_⟩
    intro e
    simp [List.isEmpty_iff.mp hNone]
  · simp only [hNone, Bool.false_eq_true, if_false] at hStage
    cases hHierarchy : db.hierarchy with
    | none => simp [hHierarchy] at hStage
    | some h =>
        by_cases hSealed : db.isSealed = true
        · simp [hHierarchy, hSealed] at hStage
        · simp only [hHierarchy, hSealed, Bool.false_eq_true,
            if_false] at hStage
          cases hStage
          refine ⟨db.dispatches ++ added db.dispatches
            (db.calls.flatMap (dispatch h)), by simp [hSealed],
            ?_⟩
          intro e
          rw [mem_added]
          simp

/- Dispatching brings in no call twice. -/
theorem nodup_dispatchCalls
    (hNodup : db.dispatches.Nodup)
    (hStage : db.dispatchCalls = .ok (after, events)) :
    after.dispatches.Nodup := by
  unfold dispatchCalls at hStage
  split at hStage
  · cases hStage
    exact hNodup
  · split at hStage
    · cases hStage
    · split at hStage
      · cases hStage
      · cases hStage
        exact nodup_added hNodup _

------------------------------------------------------------
-- Callers
------------------------------------------------------------

/-
  An index with a place for every method that has facts, into
  which the calls of a database are put by their order.
-/
def indexOver
    (db : Database)
    (index : CallerIndex) : CallerIndex :=
  (db.dispatches.mergeSort edgeLe).foldl indexEdge
    ((Signature.sort db.facts.keys).foldl
      (·.insertNew · .empty) index)

/- The index takes the calls and the methods with facts. -/
theorem indexCallers_spec
    (hStage : db.indexCallers = .ok (after, events)) :
    after = { db with callers := db.indexOver db.callers } := by
  cases hStage
  rfl

/- Facts that a stage brings in are bare. -/
theorem facts_of_runStage
    {stage : Stage}
    (hStage : db.runStage stage = .ok (after, events))
    {s : Signature}
    {f : MethodFacts}
    (hFacts : after.facts.get? s = some f) :
    db.facts.get? s = some f ∨ f = { signature := s } := by
  cases stage with
  | facts =>
      rcases completeFacts_spec hStage with
        ⟨facts, rfl, hCompleted⟩
      change facts.get? s = some f at hFacts
      rw [hCompleted s, Option.or_eq_some_iff] at hFacts
      rcases hFacts with hOld | ⟨-, hBare⟩
      · exact .inl hOld
      · split at hBare
        · cases hBare
          exact .inr rfl
        · cases hBare
  | classes =>
      rcases linkClasses_spec hStage with ⟨records, -, rfl⟩
      exact .inl hFacts
  | calls =>
      rcases collectCalls_spec hStage with ⟨calls, rfl, -⟩
      exact .inl hFacts
  | dispatches =>
      rcases dispatchCalls_spec hStage with
        ⟨dispatches, rfl, -⟩
      exact .inl hFacts
  | callers =>
      rw [indexCallers_spec hStage] at hFacts
      exact .inl hFacts

/- An index that is made once more changes in calls that tie. -/
theorem sameCallers_indexOver
    (hMethods : ∀ s ∈ db.facts.keys, s ∈ db.callers.keys)
    (hCovers : Covers db.dispatches db.callers) :
    SameCallers db.dispatches db.callers
      (db.indexOver db.callers) := by
  have hThere :
      ∀ m ∈ Signature.sort db.facts.keys,
        m ∈ db.callers.keys := by
    intro m hMem
    exact hMethods m ((Signature.mem_sort _ _).mp hMem)
  rw [indexOver, foldl_insertNew_of_mem hThere]
  exact hCovers.sameCallers

------------------------------------------------------------
-- All Stages
------------------------------------------------------------

/- What every stage keeps, any run of stages keeps. -/
theorem runStages_preserves
    {P : Database → Prop}
    (hStage :
      ∀ db stage after events, P db →
        db.runStage stage = .ok (after, events) → P after)
    (stages : List Stage)
    (hStart : P db) :
    P (runStages db events stages).database := by
  induction stages generalizing db events with
  | nil => exact hStart
  | cons stage rest ih =>
      unfold runStages
      cases hRun : db.runStage stage with
      | error e => exact hStart
      | ok result =>
          obtain ⟨after, more⟩ := result
          exact ih (hStage db stage after more hStart hRun)

/- Stages that all succeed go on from the first one. -/
theorem runStages_cons_of_success
    {stage : Stage}
    {rest : List Stage}
    (hSuccess :
      (runStages db events (stage :: rest)).failure = none) :
    ∃ after more, db.runStage stage = .ok (after, more) ∧
      runStages db events (stage :: rest) =
        runStages after (events ++ more) rest := by
  cases hRun : db.runStage stage with
  | error e =>
      rw [runStages, hRun] at hSuccess
      simp at hSuccess
  | ok result =>
      obtain ⟨after, more⟩ := result
      refine ⟨after, more, rfl, ?_⟩
      rw [runStages, hRun]

/- If making a call graph fails, the stages before stay done. -/
theorem build_database_of_failure
    {e : DatabaseError}
    (hFailure : db.build.failure = some e) :
    db.build.database =
      if db.isSealed = true then db
      else (runStages db [] stages).database := by
  unfold build at hFailure ⊢
  by_cases hSealed : db.isSealed = true
  · simp [hSealed]
  · simp only [hSealed, Bool.false_eq_true, if_false]
      at hFailure ⊢
    cases hResult : runStages db [] stages with
    | mk last events failure =>
        cases failure with
        | none => simp [hResult] at hFailure
        | some e => rfl

/-
  A call graph that is made went through all stages: the facts
  are completed, and the rest is made of them and the classes.
-/
theorem build_spec
    (hSuccess : db.build.failure = none) :
    db.isSealed = false ∧
      ∃ records facts calls dispatches,
        db.records = .ok records ∧
        (∀ s, facts.get? s =
          (db.facts.get? s).or
            (if s ∈ db.bound then some { signature := s }
              else none)) ∧
        (∀ e, e ∈ calls ↔
          e ∈ db.calls ∨
            e ∈ { db with facts }.writtenCalls) ∧
        (∀ e, e ∈ dispatches ↔
          e ∈ db.dispatches ∨
            ∃ call ∈ calls,
              e ∈ dispatch (.ofRecords records) call) ∧
        db.build.database =
          { db with
            facts, calls, dispatches
            hierarchy := some (.ofRecords records)
            callers :=
              { db with facts, dispatches }.indexOver db.callers
            isSealed := true } := by
  unfold build at hSuccess ⊢
  by_cases hSealed : db.isSealed = true
  · simp [hSealed] at hSuccess
  · simp only [hSealed, Bool.false_eq_true, if_false]
      at hSuccess ⊢
    have hRun : (runStages db [] stages).failure = none := by
      cases hResult : runStages db [] stages with
      | mk last events failure =>
          cases failure with
          | none => rfl
          | some e => simp [hResult] at hSuccess
    -- one stage after the other, each by what it does
    unfold stages at hRun ⊢
    rcases runStages_cons_of_success hRun with
      ⟨_, _, hStage₁, hRun₁⟩
    rcases completeFacts_spec hStage₁ with
      ⟨facts, rfl, hFacts⟩
    rw [hRun₁] at hRun ⊢
    rcases runStages_cons_of_success hRun with
      ⟨_, _, hStage₂, hRun₂⟩
    rcases linkClasses_spec hStage₂ with
      ⟨records, hRecords, rfl⟩
    rw [hRun₂] at hRun ⊢
    rcases runStages_cons_of_success hRun with
      ⟨_, _, hStage₃, hRun₃⟩
    rcases collectCalls_spec hStage₃ with
      ⟨calls, rfl, hCalls⟩
    rw [hRun₃] at hRun ⊢
    rcases runStages_cons_of_success hRun with
      ⟨_, _, hStage₄, hRun₄⟩
    rcases dispatchCalls_spec hStage₄ with
      ⟨dispatches, rfl, hDispatches⟩
    rw [hRun₄] at hRun ⊢
    rcases runStages_cons_of_success hRun with
      ⟨_, _, hStage₅, hRun₅⟩
    have hIndex := indexCallers_spec hStage₅
    subst hIndex
    rw [hRun₅]
    refine ⟨trivial, records, facts, calls, dispatches,
      hRecords, hFacts, hCalls, ?_, rfl⟩
    intro e
    rw [hDispatches e]
    simp

/- What every stage and the seal keep, building keeps. -/
theorem build_preserves
    {P : Database → Prop}
    (hStage :
      ∀ db stage after events, P db →
        db.runStage stage = .ok (after, events) → P after)
    (hSeal : ∀ db, P db → P { db with isSealed := true })
    (hStart : P db) :
    P db.build.database := by
  have hRun : P (runStages db [] stages).database :=
    runStages_preserves hStage stages hStart
  unfold build
  by_cases hSealed : db.isSealed = true
  · rw [if_pos hSealed]
    exact hStart
  · rw [if_neg hSealed]
    cases hResult : runStages db [] stages with
    | mk last events failure =>
        rw [hResult] at hRun
        cases failure with
        | none => exact hSeal last hRun
        | some e => exact hRun

------------------------------------------------------------
-- Success
------------------------------------------------------------

theorem runStages_cons_of_ok
    {stage : Stage}
    {rest : List Stage}
    {more : List Event}
    (hStage : db.runStage stage = .ok (after, more)) :
    runStages db events (stage :: rest) =
      runStages after (events ++ more) rest := by
  rw [runStages, hStage]

/- In an open database with a hierarchy calls are dispatched. -/
theorem exists_dispatchCalls
    {h : Hierarchy}
    (hOpen : db.isSealed = false)
    (hHierarchy : db.hierarchy = some h) :
    ∃ result, db.dispatchCalls = .ok result := by
  unfold dispatchCalls
  by_cases hNone : db.calls.isEmpty = true
  · exact ⟨_, if_pos hNone⟩
  · simp [hNone, hHierarchy, hOpen]

/-
  In an open database whose classes can be read, every stage
  succeeds in its turn, and leaves such a database.
-/
theorem exists_runStage
    {records : List ClassRecord}
    (stage : Stage)
    (hOpen : db.isSealed = false)
    (hRecords : db.records = .ok records)
    (hLinked :
      stage = .dispatches → ∃ h, db.hierarchy = some h) :
    ∃ after more, db.runStage stage = .ok (after, more) ∧
      after.isSealed = false ∧ after.records = .ok records ∧
        ((stage = .classes ∨ ∃ h, db.hierarchy = some h) →
          ∃ h, after.hierarchy = some h) := by
  cases stage with
  | facts =>
      exact ⟨_, _, rfl, hOpen, hRecords, by simp⟩
  | classes =>
      have hStage : db.linkClasses = .ok (_, _) :=
        bind_eq_ok_iff.mpr ⟨records, hRecords, rfl⟩
      exact ⟨_, _, hStage, hOpen, hRecords, fun _ => ⟨_, rfl⟩⟩
  | calls =>
      have hStage : ∃ result, db.collectCalls = .ok result := by
        simp [collectCalls, hOpen]
      rcases hStage with ⟨⟨after, more⟩, hStage⟩
      rcases collectCalls_spec hStage with ⟨calls, rfl, -⟩
      exact ⟨_, more, hStage, hOpen, hRecords, by simp⟩
  | dispatches =>
      rcases hLinked rfl with ⟨h, hHierarchy⟩
      rcases exists_dispatchCalls hOpen hHierarchy with
        ⟨⟨after, more⟩, hStage⟩
      rcases dispatchCalls_spec hStage with
        ⟨dispatches, rfl, -⟩
      exact ⟨_, more, hStage, hOpen, hRecords,
        fun _ => ⟨h, hHierarchy⟩⟩
  | callers =>
      exact ⟨_, _, rfl, hOpen, hRecords, by simp⟩

/- Of the stages only the one that reads the classes can fail. -/
theorem build_failure_eq_none_iff
    (hOpen : db.isSealed = false) :
    db.build.failure = none ↔
      ∃ records, db.records = .ok records := by
  constructor
  · intro hSuccess
    rcases build_spec hSuccess with
      ⟨-, records, -, -, -, hRecords, -⟩
    exact ⟨records, hRecords⟩
  · rintro ⟨records, hRecords⟩
    have hRun : (runStages db [] stages).failure = none := by
      unfold stages
      rcases exists_runStage .facts hOpen hRecords (by simp) with
        ⟨db₁, _, hStage₁, hOpen₁, hRecords₁, -⟩
      rcases exists_runStage .classes hOpen₁ hRecords₁
          (by simp) with
        ⟨db₂, _, hStage₂, hOpen₂, hRecords₂, hLinked₂⟩
      rcases exists_runStage .calls hOpen₂ hRecords₂
          (by simp) with
        ⟨db₃, _, hStage₃, hOpen₃, hRecords₃, hLinked₃⟩
      have hHierarchy : ∃ h, db₃.hierarchy = some h :=
        hLinked₃ (.inr (hLinked₂ (.inl rfl)))
      rcases exists_runStage .dispatches hOpen₃ hRecords₃
          (fun _ => hHierarchy) with
        ⟨db₄, _, hStage₄, hOpen₄, hRecords₄, -⟩
      rcases exists_runStage .callers hOpen₄ hRecords₄
          (by simp) with
        ⟨db₅, _, hStage₅, -⟩
      rw [runStages_cons_of_ok hStage₁,
        runStages_cons_of_ok hStage₂,
        runStages_cons_of_ok hStage₃,
        runStages_cons_of_ok hStage₄,
        runStages_cons_of_ok hStage₅, runStages]
    unfold build
    rw [if_neg (by simp [hOpen])]
    cases hResult : runStages db [] stages with
    | mk last events failure =>
        rw [hResult] at hRun
        cases hRun
        rfl

end Database

end Uncaught
