import Uncaught.Proofs.Database.Chains

/-
  Correctness of what chains say on handling: an entry is
  handled just if its method catches, around the call that is
  written for the last method in order, a type that takes the
  exception.

  Key definitions include:
    * `Database.Catches`

  Main declarations:
    * `Database.GraphOf.takes_iff`
    * `Database.handled_entriesAlong`
    * `Database.BuiltFrom.handled_iff`
    * `Database.Indexed.exists_entry`
-/

namespace Uncaught

namespace Database

open Uncaught.Graph

variable {settings : Settings} {additions : List Addition}
variable {db : Database} {records : List ClassRecord}

------------------------------------------------------------
-- Caught Types
------------------------------------------------------------

/-
  A caught type takes a thrown one: both are bound, and the
  caught one is the thrown one or stands above it, or one of
  them is not bound and the settings let that pass.
-/
def Catches
    (db : Database)
    (thrown caught : String) : Prop :=
  ((thrown ∉ db.classes.keys ∨ caught ∉ db.classes.keys) ∧
    db.settings.unknownCompatible = true) ∨
  (thrown ∈ db.classes.keys ∧ caught ∈ db.classes.keys ∧
    (thrown = caught ∨ db.Below thrown caught))

theorem GraphOf.takes_iff
    (hGraph : db.GraphOf records)
    (hNames : db.OwnNames)
    (thrown caught : String) :
    db.takes thrown caught = true ↔
      db.Catches thrown caught := by
  unfold takes Catches Below
  rw [hGraph.hierarchy_eq,
    ← link_eq_directlyUnder hNames hGraph.records_eq]
  by_cases hThrown : thrown ∈ db.classes.keys
  · by_cases hCaught : caught ∈ db.classes.keys
    · simp [(Table.contains_iff _ _).mpr hThrown,
        (Table.contains_iff _ _).mpr hCaught, hThrown, hCaught,
        Hierarchy.isCompatible_iff]
    · have hNotFound : db.classes.contains caught = false := by
        rw [← Bool.not_eq_true, Table.contains_iff]
        exact hCaught
      simp [hNotFound, hCaught]
  · have hNotFound : db.classes.contains thrown = false := by
      rw [← Bool.not_eq_true, Table.contains_iff]
      exact hThrown
    simp [hNotFound, hThrown]

------------------------------------------------------------
-- Entries
------------------------------------------------------------

/- Each entry is about the method before it on the path. -/
theorem handled_entriesAlong
    (exc : String)
    {callee : Signature}
    {callers : List Signature}
    (hSteps : (callee :: callers).IsChain db.CalledBy)
    {i : Nat}
    {entry : Entry}
    (hEntry :
      (db.entriesAlong exc callee callers)[i]? =
        some entry) :
    ∃ below, (callee :: callers)[i]? = some below ∧
      db.CalledBy below entry.method ∧
        entry.handled = db.handles exc below entry.method := by
  induction callers generalizing callee i with
  | nil => simp [entriesAlong] at hEntry
  | cons caller rest ih =>
      rcases List.isChain_cons_cons.mp hSteps with
        ⟨hCalled, hRest⟩
      cases i with
      | zero =>
          have hFirst :
              ⟨caller, db.handles exc callee caller⟩ =
                entry := by
            simpa [entriesAlong] using hEntry
          subst hFirst
          exact ⟨callee, rfl, hCalled, rfl⟩
      | succ i => exact ih hRest hEntry

/- A caller handles what one of its caught types takes. -/
theorem handles_eq_true_iff
    {callee caller : Signature}
    {e : DispatchEdge}
    (hEdge : db.edgeBetween callee caller = some e)
    {f : MethodFacts}
    (hFacts : db.facts.get? caller = some f)
    (exc : String) :
    db.handles exc callee caller = true ↔
      ∃ h ∈ (f.handlers.get? e.written).getD [],
        db.takes exc h = true := by
  unfold handles handlersIn
  simp only [hEdge, hFacts, List.any_eq_true, mem_sortNames]

------------------------------------------------------------
-- Handled Entries
------------------------------------------------------------

/-
  What it means that the entries of a chain are right: the
  method of an entry calls the method before it, and handles
  the exception around the last of its calls that can run that
  method just if the entry says so.
-/
def HandledRight
    (db : Database)
    (c : Chain) : Prop :=
  ∃ exc, c.exception = some exc ∧
    ∀ (i : Nat) (entry : Entry), c.entries[i]? = some entry →
      ∃ callee written f,
        c.methods[i]? = some callee ∧
          db.facts.get? entry.method = some f ∧
          db.IsLastCall entry.method callee written ∧
          (entry.handled = true ↔
            ∃ h ∈ (f.handlers.get? written).getD [],
              db.Catches exc h)

/- The chains along paths of callers are right. -/
theorem GraphOf.handledRight_of_mem
    (hGraph : db.GraphOf records)
    (hNames : db.OwnNames)
    (hPackages :
      ∀ caller written callee,
        db.CallsAs caller written callee →
          written.NamedPackage)
    {source : Signature}
    {paths : List (List Signature)}
    (hPaths :
      ∀ path ∈ paths, IsPath db.callersIn source path)
    {c : Chain}
    (hChain : c ∈ db.chainsOfPaths source paths) :
    db.HandledRight c := by
  rcases (mem_chainsOfPaths_iff _ _ _ _).mp hChain with
    ⟨path, hMem, exc, -, rfl⟩
  have hPath := hPaths path hMem
  rcases hPath.eq_cons with ⟨callers, rfl⟩
  refine ⟨exc, rfl, ?_⟩
  intro i entry hEntry
  have hSteps := hPath.steps
  rw [next_callersIn] at hSteps
  rcases handled_entriesAlong exc hSteps hEntry with
    ⟨callee, hCallee, ⟨e, hEdge⟩, hHandled⟩
  have hLast :=
    hGraph.isLastCall_of_edgeBetween hNames hPackages hEdge
  rcases hLast.1 with ⟨f, hFacts, -⟩
  refine ⟨callee, e.written, f, ?_, hFacts, hLast, ?_⟩
  · rw [methods_chainAlong]
    exact hCallee
  · rw [hHandled, handles_eq_true_iff hEdge hFacts]
    simp only [hGraph.takes_iff hNames]

/-
  In a database that was filled and built, both enumerators
  answer for every source, and the entries of all the chains
  that they give are right under the given settings.
-/
theorem BuiltFrom.handled_iff
    (hBuilt : BuiltFrom settings additions db)
    (hNames : ∀ a ∈ additions, a.OwnName)
    (hPackages :
      ∀ a ∈ additions, ∀ s ∈ a.signatures, s.NamedPackage)
    (source : Signature) :
    db.settings = settings ∧ ∃ tree all,
      db.chainsFrom source = .ok tree ∧
        db.allChainsFrom source = .ok all ∧
        (∀ c ∈ tree, db.HandledRight c) ∧
        ∀ c ∈ all, db.HandledRight c := by
  rcases hBuilt.graphOf with ⟨records, hGraph⟩
  have hOwn := hBuilt.ownNames hNames
  have hNamed := hBuilt.namedPackage hPackages
  refine ⟨hBuilt.settings_eq, _, _,
    chainsFrom_eq hGraph.isSealed source,
    allChainsFrom_eq hGraph.isSealed source, ?_, ?_⟩
  · intro c hChain
    apply hGraph.handledRight_of_mem hOwn hNamed _ hChain
    intro path hPath
    exact isPath_of_mem_treePaths db.callers.nodup hPath
  · intro c hChain
    apply hGraph.handledRight_of_mem hOwn hNamed _ hChain
    intro path hPath
    exact isPath_of_mem_maximalPaths db.callers.nodup hPath

/- What another method calls and throws has a chain. -/
theorem Indexed.exists_entry
    (hIndexed : db.Indexed)
    {source caller : Signature}
    (hThrows : db.exceptionsIn source ≠ [])
    (hCalled : db.CalledBy source caller)
    (hOther : caller ≠ source) :
    ∃ c ∈ db.chainsOfPaths source
        (treePaths db.callersIn db.callers.keys source),
      ∃ entry, c.methods[0]? = some source ∧
        c.entries[0]? = some entry := by
  have hPaths :
      ∀ path ∈ treePaths db.callersIn db.callers.keys source,
        IsPath db.callersIn source path :=
    fun path => isPath_of_mem_treePaths db.callers.nodup
  rw [← next_callersIn] at hCalled
  rcases (exists_mem_methods_iff hPaths hThrows caller).mpr
      ((exists_mem_treePaths_iff db.callers.nodup
        hIndexed.closed _).mpr (.single hCalled)) with
    ⟨c, hChain, hMethod⟩
  rcases (hPaths c.methods (methods_mem_of_mem_chainsOfPaths
      hPaths hChain)).eq_cons with
    ⟨callers, hCons⟩
  have hSource : c.source = source := (List.cons.inj hCons).1
  rw [Chain.methods, hSource] at hMethod
  rcases List.mem_cons.mp hMethod with hSame | hCaller
  · exact absurd hSame hOther
  · rcases List.mem_map.mp hCaller with ⟨e, hEntry, -⟩
    rcases List.exists_cons_of_ne_nil
        (List.ne_nil_of_mem hEntry) with
      ⟨entry, rest, hEntries⟩
    exact ⟨c, hChain, entry, by rw [hCons]; rfl,
      by rw [hEntries]; rfl⟩

/-
  A method of a subclass throws. Its caller has a call that is
  written for the superclass, around which it catches a type
  above the thrown one.
-/
def caughtAbove : List Addition := [
  .binding "Failure" (.record { name := "Failure" }),
  .binding "Timeout" (.record {
    name := "Timeout"
    superClass := some "Failure" }),
  .binding "A" (.record { name := "A" }),
  .binding "B" (.record {
    name := "B"
    superClass := some "A"
    methods := [{ owner := "B", name := "f" }] }),
  .facts {
    signature := { owner := "B", name := "f" }
    thrown := ["Timeout"] },
  .facts {
    signature := { owner := "M", name := "g" }
    calls := [{ owner := "A", name := "f" }]
    handlers := .ofList
      [({ owner := "A", name := "f" }, ["Failure"])] }]

theorem exists_built_caughtAbove :
    ∃ db, BuiltFrom {} caughtAbove db ∧
      db.facts.get? { owner := "B", name := "f" } = some {
        signature := { owner := "B", name := "f" }
        thrown := ["Timeout"] } ∧
      db.CallsAs { owner := "M", name := "g" }
        { owner := "A", name := "f" }
        { owner := "B", name := "f" } ∧
      db.Catches "Timeout" "Failure" := by
  refine ⟨_, ⟨_, rfl, rfl, rfl⟩, rfl, ?_, .inr ⟨?_, ?_, ?_⟩⟩
  · refine ⟨_, rfl, by decide, .inr ⟨"B", _, rfl, ?_, ?_⟩⟩
    · exact .single ⟨_, rfl, .inl (by decide), by decide⟩
    · decide
  · decide
  · decide
  · exact .inr (.single ⟨_, rfl, .inl (by decide), by decide⟩)

/- The caller handles the exception, by what it catches. -/
theorem handled_iff_caughtAbove :
    ∃ db, BuiltFrom {} caughtAbove db ∧
      ∃ written f,
        db.facts.get? { owner := "M", name := "g" } = some f ∧
          db.IsLastCall { owner := "M", name := "g" }
            { owner := "B", name := "f" } written ∧
          ∃ h ∈ (f.handlers.get? written).getD [],
            db.Catches "Timeout" h := by
  rcases exists_built_caughtAbove with
    ⟨db, hBuilt, hSource, hCall, hCatches⟩
  have hNames : ∀ a ∈ caughtAbove, a.OwnName := by
    simp [caughtAbove, Addition.OwnName, ClassBinding.read]
  have hPackages :
      ∀ a ∈ caughtAbove, ∀ s ∈ a.signatures,
        s.NamedPackage := by
    simp [caughtAbove, Addition.signatures, ClassBinding.read,
      Signature.NamedPackage, Table.mem_keys_ofList]
  rcases BuiltFrom.handled_iff hBuilt hNames hPackages
      { owner := "B", name := "f" } with
    ⟨-, tree, all, hTree, -, hRight, -⟩
  rcases hBuilt.graphOf with ⟨records, hGraph⟩
  rw [chainsFrom_eq hGraph.isSealed] at hTree
  cases hTree
  have hIndexed : db.Indexed := by
    rw [← hBuilt.run_eq]
    exact indexed_run _ _
  have hThrows :
      db.exceptionsIn { owner := "B", name := "f" } ≠ [] := by
    apply List.ne_nil_of_mem (a := "Timeout")
    simp [exceptionsIn, hSource, MethodFacts.exceptions]
  have hCalled :
      db.CalledBy { owner := "B", name := "f" }
        { owner := "M", name := "g" } :=
    (hGraph.exists_edgeBetween_iff (hBuilt.ownNames hNames)
      _ _).mpr ⟨_, hCall⟩
  rcases hIndexed.exists_entry hThrows hCalled (by decide) with
    ⟨c, hChain, entry, hMethods, hEntry⟩
  rcases hRight c hChain with ⟨exc, -, hEntries⟩
  rcases hEntries 0 entry hEntry with
    ⟨callee, written, f, hCallee, -, hLast, -⟩
  rw [hMethods] at hCallee
  cases hCallee
  -- no other method has a call
  rcases hLast.1 with ⟨g, hCaller, hWritten, -⟩
  rcases hBuilt.facts hCaller with ⟨hOwn, hAdded | rfl⟩
  · simp only [caughtAbove, List.mem_cons,
      Addition.facts.injEq, reduceCtorEq, false_or,
      List.not_mem_nil, or_false] at hAdded
    rcases hAdded with rfl | rfl
    · cases hWritten
    · rw [← hOwn] at hCaller hLast
      cases List.mem_singleton.mp hWritten
      exact ⟨db, hBuilt, _, _, hCaller, hLast, "Failure",
        by decide, hCatches⟩
  · cases hWritten

end Database

end Uncaught
