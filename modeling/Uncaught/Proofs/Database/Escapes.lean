import Uncaught.Proofs.Database.Enumeration

/-
  Where the two enumerators of chains agree on whether an
  exception escapes. A chain along the tree ends where all
  further callers were found elsewhere, so that the two can
  differ in both ways above a method with two paths. They agree
  if there is one path to each method that the exception
  passes, and to each caller of these.

  Key definitions include:
    * `Database.Passes`

  Main declarations:
    * `Database.escapes_chainAlong_iff`
    * `Database.Indexed.exists_passes_iff`
    * `Database.escapes_iff_of_onePath`
    * `Database.escapes_differ_aboveJoin`
-/

namespace Uncaught

namespace Database

open Uncaught.Graph Relation

variable {db : Database} {source : Signature} {exc : String}

------------------------------------------------------------
-- Escaping Chains
------------------------------------------------------------

/- An exception passes from a method to a caller, unhandled. -/
def Passes
    (db : Database)
    (exc : String)
    (callee caller : Signature) : Prop :=
  db.CalledBy callee caller ∧
    db.handles exc callee caller = false

/- No entry is handled along a path that the exception passes. -/
theorem forall_unhandled_iff
    {callers : List Signature}
    (hSteps : (source :: callers).IsChain db.CalledBy) :
    (∀ e ∈ db.entriesAlong exc source callers,
        e.handled = false) ↔
      (source :: callers).IsChain (db.Passes exc) := by
  induction callers generalizing source with
  | nil => simp [entriesAlong]
  | cons caller rest ih =>
      rcases List.isChain_cons_cons.mp hSteps with
        ⟨hCalled, hRest⟩
      rw [entriesAlong, List.forall_mem_cons, ih hRest,
        List.isChain_cons_cons]
      simp [Passes, hCalled]

theorem escapes_chainAlong_iff
    {callers : List Signature}
    (hSteps : (source :: callers).IsChain db.CalledBy) :
    (db.chainAlong exc source callers).escapes = true ↔
      (source :: callers).IsChain (db.Passes exc) := by
  rw [← forall_unhandled_iff hSteps]
  simp [Chain.escapes, Chain.handledIndex, chainAlong]

/- Some chain along paths escapes if the exception passes one. -/
theorem exists_escaping_iff
    {paths : List (List Signature)}
    (hPaths :
      ∀ path ∈ paths, IsPath db.callersIn source path) :
    (∃ c ∈ db.chainsOfPaths source paths,
        c.exception = some exc ∧ c.escapes = true) ↔
      exc ∈ db.exceptionsIn source ∧
        ∃ path ∈ paths, path.IsChain (db.Passes exc) := by
  have hEscapes :
      ∀ path ∈ paths, ∀ other,
        (db.chainAlong other source path.tail).escapes =
            true ↔
          path.IsChain (db.Passes other) := by
    intro path hMem other
    have hPath := hPaths path hMem
    have hSteps := hPath.steps
    rw [next_callersIn] at hSteps
    rcases hPath.eq_cons with ⟨callers, rfl⟩
    exact escapes_chainAlong_iff hSteps
  constructor
  · rintro ⟨c, hChain, hExc, hEscapes'⟩
    rcases (mem_chainsOfPaths_iff _ _ _ _).mp hChain with
      ⟨path, hPath, other, hThrown, rfl⟩
    cases hExc
    exact ⟨hThrown, path, hPath,
      (hEscapes path hPath exc).mp hEscapes'⟩
  · rintro ⟨hThrown, path, hPath, hPasses⟩
    refine ⟨db.chainAlong exc source path.tail, ?_, rfl, ?_⟩
    · exact (mem_chainsOfPaths_iff _ _ _ _).mpr
        ⟨path, hPath, exc, hThrown, rfl⟩
    · exact (hEscapes path hPath exc).mpr hPasses

------------------------------------------------------------
-- Paths That The Exception Passes
------------------------------------------------------------

/- What the exception passes is reached by it. -/
theorem reflTransGen_passes_of_mem
    {path : List Signature}
    (hHead : path.head? = some source)
    (hPasses : path.IsChain (db.Passes exc))
    {m : Signature}
    (hMem : m ∈ path) :
    ReflTransGen (db.Passes exc) source m := by
  induction path generalizing source with
  | nil => simp at hMem
  | cons first rest ih =>
      have hSame : first = source := by simpa using hHead
      subst hSame
      cases rest with
      | nil =>
          rw [List.mem_singleton] at hMem
          rw [hMem]
      | cons second rest =>
          rcases List.isChain_cons_cons.mp hPasses with
            ⟨hFirst, hRest⟩
          rcases List.mem_cons.mp hMem with rfl | hMem
          · exact .refl
          · exact (ih rfl hRest hMem).head hFirst

/-
  The last method that an exception passes is the source, or
  calls a method that the exception reaches.
-/
theorem last_of_passes
    {path : List Signature}
    (hHead : path.head? = some source)
    (hPasses : path.IsChain (db.Passes exc))
    {last : Signature}
    (hLast : path.getLast? = some last) :
    last = source ∨
      ∃ below, ReflTransGen (db.Passes exc) source below ∧
        db.CalledBy below last := by
  have hReached := reflTransGen_passes_of_mem hHead hPasses
    (List.mem_of_getLast? hLast)
  rcases ReflTransGen.cases_tail hReached with
    hSame | ⟨below, hBelow, hStep⟩
  · exact .inl hSame
  · exact .inr ⟨below, hBelow, hStep.1⟩

------------------------------------------------------------
-- Both Enumerators
------------------------------------------------------------

/- A path of the tree that no caller extends is a maximal one. -/
theorem Indexed.mem_maximalPaths
    (hIndexed : db.Indexed)
    {path : List Signature}
    (hMem :
      path ∈ treePaths db.callersIn db.callers.keys source)
    (hClosed :
      ∀ last, path.getLast? = some last →
        ∀ caller ∈ db.callersIn last, caller ∈ path) :
    path ∈ maximalPaths db.callersIn db.callers.keys source :=
  (mem_maximalPaths_iff db.callers.nodup hIndexed.closed
    path).mpr
      ⟨isPath_of_mem_treePaths db.callers.nodup hMem, hClosed⟩

/- A maximal path to a method with one path is in the tree. -/
theorem Indexed.mem_treePaths
    (hIndexed : db.Indexed)
    {path : List Signature}
    (hMem :
      path ∈ maximalPaths db.callersIn db.callers.keys source)
    (hOne :
      ∀ last, path.getLast? = some last →
        OnePath db.callersIn source last) :
    path ∈ treePaths db.callersIn db.callers.keys source := by
  have hMaximal :=
    (mem_maximalPaths_iff db.callers.nodup hIndexed.closed
      path).mp hMem
  rcases hMaximal.eq_cons with ⟨callers, rfl⟩
  have hLast :=
    List.getLast?_eq_some_getLast
      (List.cons_ne_nil source callers)
  exact hMaximal.mem_treePaths db.callers.nodup hIndexed.closed
    hLast (hOne _ hLast)

/- Chains are the same if their paths are. -/
theorem mem_chainsOfPaths_of_methods
    {paths others : List (List Signature)}
    (hPaths :
      ∀ path ∈ paths, IsPath db.callersIn source path)
    {c : Chain}
    (hChain : c ∈ db.chainsOfPaths source paths)
    (hMethods : c.methods ∈ others) :
    c ∈ db.chainsOfPaths source others := by
  rcases (mem_chainsOfPaths_iff _ _ _ _).mp hChain with
    ⟨path, hPath, exc, hThrown, rfl⟩
  rw [methods_chainAlong_tail db exc (hPaths path hPath)]
    at hMethods
  exact (mem_chainsOfPaths_iff _ _ _ _).mpr
    ⟨path, hMethods, exc, hThrown, rfl⟩

/-
  If there is one path to each caller of a method that the
  exception reaches, it passes a path of the tree just if it
  passes a maximal one.
-/
theorem Indexed.exists_passes_iff
    (hIndexed : db.Indexed)
    (hOne :
      ∀ below caller,
        ReflTransGen (db.Passes exc) source below →
          db.CalledBy below caller →
            OnePath db.callersIn source caller) :
    (∃ path ∈ treePaths db.callersIn db.callers.keys source,
        path.IsChain (db.Passes exc)) ↔
      ∃ path ∈ maximalPaths db.callersIn db.callers.keys source,
        path.IsChain (db.Passes exc) := by
  constructor
  · rintro ⟨path, hMem, hPasses⟩
    refine ⟨path, hIndexed.mem_maximalPaths hMem ?_, hPasses⟩
    intro last hLast
    have hPath := isPath_of_mem_treePaths db.callers.nodup hMem
    have hReached := reflTransGen_passes_of_mem hPath.head
      hPasses (List.mem_of_getLast? hLast)
    apply closed_of_onePath db.callers.nodup hIndexed.closed
      hMem hLast
    intro caller hCaller
    exact hOne last caller hReached
      ((mem_callersIn_iff db last caller).mp hCaller)
  · rintro ⟨path, hMem, hPasses⟩
    refine ⟨path, hIndexed.mem_treePaths hMem ?_, hPasses⟩
    intro last hLast
    have hPath :=
      isPath_of_mem_maximalPaths db.callers.nodup hMem
    rcases last_of_passes hPath.head hPasses hLast with
      rfl | ⟨below, hReached, hCalled⟩
    · exact onePath_start _ _
    · exact hOne below last hReached hCalled

/-
  In every sealed database and for every source: a chain along
  the tree whose last method has no caller off the chain is an
  exact chain, and an exact chain is one along the tree if no
  other path leads to its last method. If one path only leads
  to each caller of a method that an exception reaches
  unhandled, then the exception escapes along the tree just if
  it escapes along some exact chain.
-/
theorem escapes_iff_of_onePath
    {settings : Settings}
    {steps : List Step}
    (hRun : run settings steps = db)
    (hSealed : db.isSealed = true)
    (source : Signature) :
    ∃ tree all,
      db.chainsFrom source = .ok tree ∧
        db.allChainsFrom source = .ok all ∧
        (∀ c ∈ tree,
          (∀ last, c.methods.getLast? = some last →
            ∀ caller, db.CalledBy last caller →
              caller ∈ c.methods) →
          c ∈ all) ∧
        (∀ c ∈ all,
          (∀ last, c.methods.getLast? = some last →
            OnePath db.callersIn source last) →
          c ∈ tree) ∧
        ∀ exc,
          (∀ below caller,
            ReflTransGen (db.Passes exc) source below →
              db.CalledBy below caller →
                OnePath db.callersIn source caller) →
          ((∃ c ∈ tree,
              c.exception = some exc ∧ c.escapes = true) ↔
            ∃ c ∈ all,
              c.exception = some exc ∧ c.escapes = true) := by
  have hIndexed : db.Indexed := by
    rw [← hRun]
    exact indexed_run settings steps
  have hTree :
      ∀ path ∈ treePaths db.callersIn db.callers.keys source,
        IsPath db.callersIn source path :=
    fun path => isPath_of_mem_treePaths db.callers.nodup
  have hMaximal :
      ∀ path ∈ maximalPaths db.callersIn db.callers.keys source,
        IsPath db.callersIn source path :=
    fun path => isPath_of_mem_maximalPaths db.callers.nodup
  refine ⟨_, _, chainsFrom_eq hSealed source,
    allChainsFrom_eq hSealed source, ?_, ?_, ?_⟩
  · intro c hChain hClosed
    apply mem_chainsOfPaths_of_methods hTree hChain
    apply hIndexed.mem_maximalPaths
      (methods_mem_of_mem_chainsOfPaths hTree hChain)
    intro last hLast caller hCaller
    exact hClosed last hLast caller
      ((mem_callersIn_iff db last caller).mp hCaller)
  · intro c hChain hOne
    apply mem_chainsOfPaths_of_methods hMaximal hChain
    exact hIndexed.mem_treePaths
      (methods_mem_of_mem_chainsOfPaths hMaximal hChain) hOne
  · intro exc hOne
    rw [exists_escaping_iff hTree, exists_escaping_iff hMaximal,
      hIndexed.exists_passes_iff hOne]

/- A chain of the samples, by the names of its callers. -/
def sampleChain
    (source : String)
    (callers : List (String × Bool)) : Chain :=
  ⟨sampleMethod source,
    callers.map fun (name, handled) =>
      ⟨sampleMethod name, handled⟩,
    some "E"⟩

/-
  A source with two callers, of which one handles the exception.
  Two methods stand above the one that handles it, and a third
  one above both.
-/
def joinAboveHandler : List Addition := [
  .facts {
    signature := sampleMethod "a"
    thrown := ["E"] },
  .facts {
    signature := sampleMethod "b"
    calls := [sampleMethod "a"]
    handlers := .ofList [(sampleMethod "a", ["E"])] },
  .facts {
    signature := sampleMethod "c"
    calls := [sampleMethod "a"] },
  .facts {
    signature := sampleMethod "d"
    calls := [sampleMethod "b"] },
  .facts {
    signature := sampleMethod "e"
    calls := [sampleMethod "b"] },
  .facts {
    signature := sampleMethod "f"
    calls := [sampleMethod "d", sampleMethod "e"] }]

theorem exists_built_joinAboveHandler :
    ∃ db, BuiltFrom {} joinAboveHandler db ∧
      db.callersIn (sampleMethod "a") =
        ["b", "c"].map sampleMethod ∧
      db.callersIn (sampleMethod "c") = [] ∧
      db.handles "E" (sampleMethod "a") (sampleMethod "b") =
        true ∧
      maximalPaths db.callersIn db.callers.keys
          (sampleMethod "a") =
        [["a", "b", "d", "f"].map sampleMethod,
          ["a", "b", "e", "f"].map sampleMethod,
          ["a", "c"].map sampleMethod] ∧
      db.chainsFrom (sampleMethod "a") =
        .ok [
          sampleChain "a" [("c", false)],
          sampleChain "a" [("b", true), ("e", false)],
          sampleChain "a"
            [("b", true), ("d", false), ("f", false)]] := by
  refine ⟨_, ⟨_, rfl, rfl, rfl⟩, ?_, ?_, ?_, ?_, ?_⟩
  · cbv
  · cbv
  · cbv
  · cbv
  · cbv

/-
  The exception escapes along the one path beside the handler;
  the paths that join above the handler do not matter.
-/
theorem escapes_iff_of_onePath_joinAboveHandler :
    ∃ db, BuiltFrom {} joinAboveHandler db ∧
      db.isSealed = true ∧
      (∀ below caller,
        ReflTransGen (db.Passes "E") (sampleMethod "a") below →
          db.CalledBy below caller →
            OnePath db.callersIn (sampleMethod "a") caller) ∧
      ∃ all, db.allChainsFrom (sampleMethod "a") = .ok all ∧
        ∃ c ∈ all,
          c.exception = some "E" ∧ c.escapes = true := by
  rcases exists_built_joinAboveHandler with
    ⟨db, hBuilt, hCallers, hNoCallers, hHandled, hPaths, hTree⟩
  rcases hBuilt.graphOf with ⟨records, hGraph⟩
  have hIndexed : db.Indexed := by
    rw [← hBuilt.run_eq]
    exact indexed_run _ _
  have hReached :
      ∀ below,
        ReflTransGen (db.Passes "E") (sampleMethod "a") below →
          below = sampleMethod "a" ∨
            below = sampleMethod "c" := by
    intro below hPath
    induction hPath with
    | refl => exact .inl rfl
    | @tail callee caller _ hStep ih =>
        have hMem := (mem_callersIn_iff db _ _).mpr hStep.1
        rcases ih with rfl | rfl
        · simp only [hCallers, List.map_cons, List.map_nil,
            List.mem_cons, List.not_mem_nil, or_false] at hMem
          rcases hMem with rfl | rfl
          · rw [Passes, hHandled] at hStep
            cases hStep.2
          · exact .inr rfl
        · simp [hNoCallers] at hMem
  have hOne :
      ∀ below caller,
        ReflTransGen (db.Passes "E") (sampleMethod "a") below →
          db.CalledBy below caller →
            OnePath db.callersIn (sampleMethod "a") caller := by
    intro below caller hPath hCalled
    have hMem := (mem_callersIn_iff db _ _).mpr hCalled
    apply onePath_of_maximalPaths hIndexed.closed
    rw [hPaths]
    rcases hReached below hPath with rfl | rfl
    · simp only [hCallers, List.map_cons, List.map_nil,
        List.mem_cons, List.not_mem_nil, or_false] at hMem
      rcases hMem with rfl | rfl
      · decide
      · decide
    · simp [hNoCallers] at hMem
  rcases escapes_iff_of_onePath hBuilt.run_eq hGraph.isSealed
      (sampleMethod "a") with
    ⟨tree, all, hChains, hAll, -, -, hEscapes⟩
  rw [hTree] at hChains
  cases hChains
  refine ⟨db, hBuilt, hGraph.isSealed, hOne, all, hAll, ?_⟩
  exact (hEscapes "E" hOne).mp
    ⟨_, List.mem_cons_self, rfl, rfl⟩

------------------------------------------------------------
-- Where They Differ
------------------------------------------------------------

/-
  A source with two callers, of which one handles the exception.
  A method above both handles it around the other one.
-/
def handledAboveJoin : List Addition := [
  .facts {
    signature := sampleMethod "a"
    thrown := ["E"] },
  .facts {
    signature := sampleMethod "b"
    calls := [sampleMethod "a"]
    handlers := .ofList [(sampleMethod "a", ["E"])] },
  .facts {
    signature := sampleMethod "c"
    calls := [sampleMethod "a"] },
  .facts {
    signature := sampleMethod "d"
    calls := [sampleMethod "b", sampleMethod "c"]
    handlers := .ofList [(sampleMethod "c", ["E"])] }]

/-
  The same source and callers. Of two methods above the caller
  that does not handle the exception, one handles it; the other
  one stands above both callers, and is found from the other
  side first.
-/
def unhandledAboveJoin : List Addition := [
  .facts {
    signature := sampleMethod "a"
    thrown := ["E"] },
  .facts {
    signature := sampleMethod "b"
    calls := [sampleMethod "a"]
    handlers := .ofList [(sampleMethod "a", ["E"])] },
  .facts {
    signature := sampleMethod "c"
    calls := [sampleMethod "a"] },
  .facts {
    signature := sampleMethod "d"
    calls := [sampleMethod "c"]
    handlers := .ofList [(sampleMethod "c", ["E"])] },
  .facts {
    signature := sampleMethod "e"
    calls := [sampleMethod "b", sampleMethod "c"] }]

theorem exists_built_handledAboveJoin :
    ∃ db, BuiltFrom {} handledAboveJoin db ∧
      sampleMethod "a" ∈ db.facts.keys ∧
      db.exceptionsOf (sampleMethod "a") = .ok ["E"] ∧
      db.chainsFrom (sampleMethod "a") =
        .ok [
          sampleChain "a" [("c", false)],
          sampleChain "a"
            [("b", true), ("d", false)]] ∧
      db.allChainsFrom (sampleMethod "a") =
        .ok [
          sampleChain "a"
            [("b", true), ("d", false)],
          sampleChain "a"
            [("c", false), ("d", true)]] := by
  refine ⟨_, ⟨_, rfl, rfl, rfl⟩, by decide, ?_, ?_, ?_⟩
  · cbv
  · cbv
  · cbv

theorem exists_built_unhandledAboveJoin :
    ∃ db, BuiltFrom {} unhandledAboveJoin db ∧
      sampleMethod "a" ∈ db.facts.keys ∧
      db.exceptionsOf (sampleMethod "a") = .ok ["E"] ∧
      db.chainsFrom (sampleMethod "a") =
        .ok [
          sampleChain "a"
            [("b", true), ("e", false)],
          sampleChain "a"
            [("c", false), ("d", true)]] ∧
      db.allChainsFrom (sampleMethod "a") =
        .ok [
          sampleChain "a"
            [("b", true), ("e", false)],
          sampleChain "a"
            [("c", false), ("d", true)],
          sampleChain "a"
            [("c", false), ("e", false)]] := by
  refine ⟨_, ⟨_, rfl, rfl, rfl⟩, by decide, ?_, ?_, ?_⟩
  · cbv
  · cbv
  · cbv

/-
  A chain that is cut below a method on another chain can
  escape where no exact chain does, and the other way round.
-/
theorem escapes_differ_aboveJoin :
    (∃ db tree all,
      BuiltFrom {} handledAboveJoin db ∧ db.isSealed = true ∧
        sampleMethod "a" ∈ db.facts.keys ∧
        db.exceptionsOf (sampleMethod "a") = .ok ["E"] ∧
        db.chainsFrom (sampleMethod "a") = .ok tree ∧
        db.allChainsFrom (sampleMethod "a") = .ok all ∧
        (∃ c ∈ tree,
          c.exception = some "E" ∧ c.escapes = true) ∧
        ¬∃ c ∈ all,
          c.exception = some "E" ∧ c.escapes = true) ∧
    ∃ db tree all,
      BuiltFrom {} unhandledAboveJoin db ∧ db.isSealed = true ∧
        sampleMethod "a" ∈ db.facts.keys ∧
        db.exceptionsOf (sampleMethod "a") = .ok ["E"] ∧
        db.chainsFrom (sampleMethod "a") = .ok tree ∧
        db.allChainsFrom (sampleMethod "a") = .ok all ∧
        (¬∃ c ∈ tree,
          c.exception = some "E" ∧ c.escapes = true) ∧
        ∃ c ∈ all,
          c.exception = some "E" ∧ c.escapes = true := by
  constructor
  · rcases exists_built_handledAboveJoin with
      ⟨db, hBuilt, hFacts, hThrows, hTree, hAll⟩
    rcases hBuilt.graphOf with ⟨records, hGraph⟩
    exact ⟨db, _, _, hBuilt, hGraph.isSealed, hFacts, hThrows,
      hTree, hAll, by decide, by decide⟩
  · rcases exists_built_unhandledAboveJoin with
      ⟨db, hBuilt, hFacts, hThrows, hTree, hAll⟩
    rcases hBuilt.graphOf with ⟨records, hGraph⟩
    exact ⟨db, _, _, hBuilt, hGraph.isSealed, hFacts, hThrows,
      hTree, hAll, by decide, by decide⟩

end Database

end Uncaught
