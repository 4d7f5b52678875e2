import Uncaught.Proofs.Database.Dispatch

/-
  Correctness of the call graph of a built database: it has the
  callers that the facts and the classes tell, and between two
  methods it keeps the call that is written for the last method
  in order. Where a caller has several such calls, the index
  keeps one of them only.

  Main declarations:
    * `Database.mem_callersIn_iff`
    * `Database.BuiltFrom.callGraph_correct`
    * `Database.BuiltFrom.index_complete_iff`
-/

namespace Uncaught

namespace Database

variable {settings : Settings} {additions : List Addition}
variable {db : Database} {records : List ClassRecord}

------------------------------------------------------------
-- Index
------------------------------------------------------------

/- The callers of a method are those with a call in the index. -/
theorem mem_callersIn_iff
    (db : Database)
    (callee caller : Signature) :
    caller ∈ db.callersIn callee ↔
      ∃ e, db.edgeBetween callee caller = some e := by
  unfold callersIn Signature.sort edgeBetween
  rw [List.mem_mergeSort, Table.mem_keys_iff]
  cases db.callers.get? callee <;> simp

/- What the index of a database takes its places from. -/
theorem mem_keys_indexOver
    (db : Database)
    (index : CallerIndex)
    (m : Signature) :
    m ∈ (db.indexOver index).keys ↔
      (m ∈ index.keys ∨ m ∈ db.facts.keys) ∨
        ∃ e ∈ db.dispatches, m = e.callee ∨ m = e.caller := by
  unfold indexOver Signature.sort
  rw [mem_keys_foldl_indexEdge, mem_keys_foldl_insertNew]
  simp only [List.mem_mergeSort]

namespace GraphOf

/- Every call has a call in its place, which comes no earlier. -/
theorem exists_kept
    (hGraph : db.GraphOf records)
    {e : DispatchEdge}
    (hMem : e ∈ db.dispatches) :
    ∃ kept ∈ db.dispatches,
      db.edgeBetween e.callee e.caller = some kept ∧
        kept.callee = e.callee ∧ kept.caller = e.caller ∧
          Signature.le e.written kept.written := by
  rw [edgeBetween_eq, hGraph.callers_eq]
  exact edgeIn_sorted hMem

/- A call in the index is a dispatched call of its place. -/
theorem mem_of_edgeBetween
    (hGraph : db.GraphOf records)
    {callee caller : Signature}
    {e : DispatchEdge}
    (hEdge : db.edgeBetween callee caller = some e) :
    e ∈ db.dispatches ∧ e.callee = callee ∧
      e.caller = caller := by
  rw [edgeBetween_eq, hGraph.callers_eq] at hEdge
  rcases eq_of_edgeIn_foldl_indexEdge hEdge with hNew | hOld
  · rw [List.mem_mergeSort] at hNew
    exact hNew
  · rw [edgeIn_foldl_insertNew] at hOld
    simp [edgeIn] at hOld

theorem mem_keys_callers_iff
    (hGraph : db.GraphOf records)
    (hNames : db.OwnNames)
    (m : Signature) :
    m ∈ db.callers.keys ↔
      m ∈ db.facts.keys ∨
        ∃ caller written, db.CallsAs caller written m := by
  rw [hGraph.callers_eq, mem_keys_indexOver]
  simp only [Table.keys_empty, List.not_mem_nil, false_or,
    hGraph.mem_dispatches_iff hNames]
  constructor
  · rintro (hFacts | ⟨e, hCalls, rfl | rfl⟩)
    · exact .inl hFacts
    · exact .inr ⟨e.caller, e.written, hCalls⟩
    · rcases hCalls with ⟨f, hFacts, -⟩
      exact .inl ((Table.mem_keys_iff _ _).mpr ⟨f, hFacts⟩)
  · rintro (hFacts | ⟨caller, written, hCalls⟩)
    · exact .inl hFacts
    · exact .inr ⟨⟨caller, m, written⟩, hCalls, .inl rfl⟩

/- A method is called where some written call can run it. -/
theorem exists_edgeBetween_iff
    (hGraph : db.GraphOf records)
    (hNames : db.OwnNames)
    (callee caller : Signature) :
    (∃ e, db.edgeBetween callee caller = some e) ↔
      ∃ written, db.CallsAs caller written callee := by
  constructor
  · rintro ⟨e, hEdge⟩
    rcases hGraph.mem_of_edgeBetween hEdge with
      ⟨hMem, rfl, rfl⟩
    exact ⟨e.written, (hGraph.mem_dispatches_iff hNames e).mp
      hMem⟩
  · rintro ⟨written, hCalls⟩
    have hMem :=
      (hGraph.mem_dispatches_iff hNames
        ⟨caller, callee, written⟩).mpr hCalls
    rcases hGraph.exists_kept hMem with ⟨kept, -, hEdge, -⟩
    exact ⟨kept, hEdge⟩

/-
  The call in a place is the last one, where no two written
  methods tie.
-/
theorem isLastCall_of_edgeBetween
    (hGraph : db.GraphOf records)
    (hNames : db.OwnNames)
    (hPackages :
      ∀ caller written callee,
        db.CallsAs caller written callee →
          written.NamedPackage)
    {callee caller : Signature}
    {e : DispatchEdge}
    (hEdge : db.edgeBetween callee caller = some e) :
    db.IsLastCall caller callee e.written := by
  rcases hGraph.mem_of_edgeBetween hEdge with ⟨hMem, rfl, rfl⟩
  have hCalls := (hGraph.mem_dispatches_iff hNames e).mp hMem
  refine ⟨hCalls, ?_⟩
  intro other hOther hDifferent
  have hOtherMem :=
    (hGraph.mem_dispatches_iff hNames
      ⟨e.caller, e.callee, other⟩).mpr hOther
  rcases hGraph.exists_kept hOtherMem with
    ⟨kept, -, hKept, -, -, hOrder⟩
  rw [hEdge] at hKept
  cases hKept
  rcases Ordering.isLE_iff_eq_lt_or_eq_eq.mp hOrder with
    hBefore | hTie
  · exact hBefore
  · exact absurd
      (Signature.eq_of_order_eq_eq
        (hPackages _ _ _ hOther) (hPackages _ _ _ hCalls) hTie)
      hDifferent

end GraphOf

------------------------------------------------------------
-- Call Graph
------------------------------------------------------------

/- Where additions name their packages, so do written calls. -/
theorem BuiltFrom.namedPackage
    (hBuilt : BuiltFrom settings additions db)
    (hPackages :
      ∀ a ∈ additions, ∀ s ∈ a.signatures, s.NamedPackage)
    (caller written callee : Signature)
    (hCalls : db.CallsAs caller written callee) :
    written.NamedPackage := by
  rcases hCalls with ⟨f, hFacts, hWritten, -⟩
  rcases (hBuilt.facts hFacts).2 with hAdded | hBare
  · apply hPackages _ hAdded
    simp [Addition.signatures, hWritten]
  · rw [hBare] at hWritten
    simp at hWritten

/-
  The call graph of a built database is the one that is meant:
  the callers of a method are those with a written call that
  can run it, the index has the methods with facts and the
  methods that are so called, and between two methods it has
  the call that is written for the last method in order.
-/
theorem BuiltFrom.callGraph_correct
    (hBuilt : BuiltFrom settings additions db)
    (hNames : ∀ a ∈ additions, a.OwnName)
    (hPackages :
      ∀ a ∈ additions, ∀ s ∈ a.signatures, s.NamedPackage) :
    (∀ callee, ∃ callers,
      db.callersOf callee = .ok callers ∧
        ∀ caller, caller ∈ callers ↔
          ∃ written, db.CallsAs caller written callee) ∧
    (∀ m, m ∈ db.callers.keys ↔
      m ∈ db.facts.keys ∨
        ∃ caller written, db.CallsAs caller written m) ∧
    ∀ callee caller,
      (∃ written, db.CallsAs caller written callee) →
        ∃ e, db.edgeBetween callee caller = some e ∧
          e.callee = callee ∧ e.caller = caller ∧
            db.IsLastCall caller callee e.written := by
  rcases hBuilt.graphOf with ⟨records, hGraph⟩
  have hOwn := hBuilt.ownNames hNames
  refine ⟨?_, hGraph.mem_keys_callers_iff hOwn, ?_⟩
  · intro callee
    refine ⟨db.callersIn callee, ?_, ?_⟩
    · simp [callersOf, checkSealed, hGraph.isSealed, bind,
        Except.bind, pure, Except.pure]
    · intro caller
      rw [mem_callersIn_iff]
      exact hGraph.exists_edgeBetween_iff hOwn callee caller
  · intro callee caller hCalls
    rcases (hGraph.exists_edgeBetween_iff hOwn callee
        caller).mpr hCalls with
      ⟨e, hEdge⟩
    have hPlace := (hGraph.mem_of_edgeBetween hEdge).2
    exact ⟨e, hEdge, hPlace.1, hPlace.2,
      hGraph.isLastCall_of_edgeBetween hOwn
        (hBuilt.namedPackage hPackages) hEdge⟩

/-
  A caller with two calls, for a method of a class and for one
  of an interface. A class below both declares the method, so
  that either call can run it.
-/
def twoWrittenCalls : List Addition := [
  .binding "A" (.record { name := "A" }),
  .binding "C" (.record {
    name := "C"
    superClass := some "A"
    interfaces := ["B"]
    methods := [{ owner := "C", name := "f" }] }),
  .facts {
    signature := { owner := "M", name := "g" }
    calls := [
      { owner := "A", name := "f" },
      { owner := "B", name := "f" }] }]

theorem ownName_twoWrittenCalls :
    ∀ a ∈ twoWrittenCalls, a.OwnName := by
  simp [twoWrittenCalls, Addition.OwnName, ClassBinding.read]

/- Either call can run the method of the class below. -/
theorem exists_built_twoWrittenCalls :
    ∃ db, BuiltFrom {} twoWrittenCalls db ∧
      db.facts.get? { owner := "M", name := "g" } = some {
        signature := { owner := "M", name := "g" }
        calls := [
          { owner := "A", name := "f" },
          { owner := "B", name := "f" }] } ∧
      db.CallsAs { owner := "M", name := "g" }
        { owner := "A", name := "f" }
        { owner := "C", name := "f" } ∧
      db.CallsAs { owner := "M", name := "g" }
        { owner := "B", name := "f" }
        { owner := "C", name := "f" } := by
  refine ⟨_, ⟨_, rfl, rfl, rfl⟩, rfl, ?_, ?_⟩
  · refine ⟨_, rfl, by decide, .inr ⟨"C", _, rfl, ?_, ?_⟩⟩
    · exact .single
        ⟨_, rfl, .inl (by decide), by decide⟩
    · decide
  · refine ⟨_, rfl, by decide, .inr ⟨"C", _, rfl, ?_, ?_⟩⟩
    · exact .single
        ⟨_, rfl, .inr (by decide), by decide⟩
    · decide

/- The call for the interface comes last, and is kept. -/
theorem callGraph_correct_twoWrittenCalls :
    ∃ db, BuiltFrom {} twoWrittenCalls db ∧
      (∃ callers,
        db.callersOf { owner := "C", name := "f" } =
            .ok callers ∧
          { owner := "M", name := "g" } ∈ callers) ∧
      db.IsLastCall { owner := "M", name := "g" }
        { owner := "C", name := "f" }
        { owner := "B", name := "f" } := by
  rcases exists_built_twoWrittenCalls with
    ⟨db, hBuilt, hFacts, hClass, hInterface⟩
  have hPackages :
      ∀ a ∈ twoWrittenCalls, ∀ s ∈ a.signatures,
        s.NamedPackage := by
    simp [twoWrittenCalls, Addition.signatures,
      ClassBinding.read, Signature.NamedPackage]
  rcases BuiltFrom.callGraph_correct hBuilt
      ownName_twoWrittenCalls hPackages with
    ⟨hCallers, -, hEdges⟩
  refine ⟨db, hBuilt, ?_, ?_⟩
  · rcases hCallers { owner := "C", name := "f" } with
      ⟨callers, hAnswer, hMem⟩
    exact ⟨callers, hAnswer, (hMem _).mpr ⟨_, hClass⟩⟩
  · rcases hEdges _ _ ⟨_, hClass⟩ with ⟨e, -, -, -, hLast⟩
    rcases hLast.1 with ⟨f, hCaller, hWritten, -⟩
    rw [hFacts] at hCaller
    cases hCaller
    simp only [List.mem_cons, List.not_mem_nil,
      or_false] at hWritten
    rcases hWritten with hIsClass | hIsInterface
    · rw [hIsClass] at hLast
      have hOrder := hLast.2 _ hInterface (by decide)
      exact absurd hOrder (by decide)
    · rw [hIsInterface] at hLast
      exact hLast

------------------------------------------------------------
-- Calls That Share A Place
------------------------------------------------------------

/-
  The index keeps, for every dispatched call, a call in its
  place that comes no earlier in order. It keeps every call
  itself just if no caller has two written calls that can run
  the same method.
-/
theorem BuiltFrom.index_complete_iff
    (hBuilt : BuiltFrom settings additions db) :
    (∀ e ∈ db.dispatches, ∃ kept ∈ db.dispatches,
      db.edgeBetween e.callee e.caller = some kept ∧
        kept.callee = e.callee ∧ kept.caller = e.caller ∧
          Signature.le e.written kept.written) ∧
    ((∀ e ∈ db.dispatches,
        db.edgeBetween e.callee e.caller = some e) ↔
      ∀ e ∈ db.dispatches, ∀ other ∈ db.dispatches,
        e.callee = other.callee → e.caller = other.caller →
          e.written = other.written) := by
  rcases hBuilt.graphOf with ⟨records, hGraph⟩
  refine ⟨fun e hMem => hGraph.exists_kept hMem, ?_, ?_⟩
  · intro hAll e hMem other hOther hCallee hCaller
    have hEdge := hAll e hMem
    rw [hCallee, hCaller, hAll other hOther] at hEdge
    cases hEdge
    rfl
  · intro hDistinct e hMem
    rcases hGraph.exists_kept hMem with
      ⟨kept, hKept, hEdge, hCallee, hCaller, -⟩
    have hWritten :=
      hDistinct kept hKept e hMem hCallee hCaller
    rw [hEdge]
    cases kept
    cases e
    simp_all

/- Two calls that share a place. -/
theorem exists_shared_twoWrittenCalls :
    ∃ db, BuiltFrom {} twoWrittenCalls db ∧
      ∃ e ∈ db.dispatches, ∃ other ∈ db.dispatches,
        e.callee = other.callee ∧ e.caller = other.caller ∧
          e.written ≠ other.written := by
  rcases exists_built_twoWrittenCalls with
    ⟨db, hBuilt, -, hClass, hInterface⟩
  rcases hBuilt.graphOf with ⟨records, hGraph⟩
  have hDispatched :=
    hGraph.mem_dispatches_iff
      (hBuilt.ownNames ownName_twoWrittenCalls)
  exact ⟨db, hBuilt, ⟨_, _, _⟩, (hDispatched _).mpr hClass,
    ⟨_, _, _⟩, (hDispatched _).mpr hInterface, rfl, rfl,
    by decide⟩

/- With two calls in one place, one of them is not kept. -/
theorem index_complete_iff_twoWrittenCalls :
    ∃ db, BuiltFrom {} twoWrittenCalls db ∧
      (¬∀ e ∈ db.dispatches, ∀ other ∈ db.dispatches,
        e.callee = other.callee → e.caller = other.caller →
          e.written = other.written) ∧
      ¬∀ e ∈ db.dispatches,
        db.edgeBetween e.callee e.caller = some e := by
  rcases exists_shared_twoWrittenCalls with
    ⟨db, hBuilt, e, hMem, other, hOther, hCallee, hCaller,
      hDifferent⟩
  have hShared :
      ¬∀ e ∈ db.dispatches, ∀ other ∈ db.dispatches,
        e.callee = other.callee → e.caller = other.caller →
          e.written = other.written := by
    intro hDistinct
    exact hDifferent
      (hDistinct e hMem other hOther hCallee hCaller)
  exact ⟨db, hBuilt, hShared,
    mt (BuiltFrom.index_complete_iff hBuilt).2.mp hShared⟩

/- The index does not keep every dispatched call. -/
theorem index_drops_call :
    ¬∀ settings additions db,
      BuiltFrom settings additions db →
        ∀ e ∈ db.dispatches,
          db.edgeBetween e.callee e.caller = some e := by
  intro hAll
  rcases exists_shared_twoWrittenCalls with
    ⟨db, hBuilt, e, hMem, other, hOther, hCallee, hCaller,
      hDifferent⟩
  have hEdge := hAll _ _ db hBuilt e hMem
  rw [hCallee, hCaller, hAll _ _ db hBuilt other hOther] at hEdge
  cases hEdge
  exact hDifferent rfl

end Database

end Uncaught
