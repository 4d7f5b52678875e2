import Mathlib
import Uncaught.Proofs.Database.Chains
import Uncaught.Proofs.Graph.PathExtensions

/-
  The two enumerators of chains. The exact one lists the
  maximal paths of callers through distinct methods, each once
  and in order, with one chain for each exception. The chains
  along the tree are beginnings of these, no two of the same
  one, and have the same methods and exceptions.

  Mathlib is imported whole, so that evaluating the samples adds
  no equations of library functions to this module.

  Key definitions include:
    * `Chain.Begins`

  Main declarations:
    * `Database.allChainsFrom_exact`
    * `Database.chainsFrom_begin_allChainsFrom`
-/

namespace Uncaught

/-
  A chain is the beginning of another one, for the same
  exception: from its source on, the entries are the same.
-/
def Chain.Begins
    (c longer : Chain) : Prop :=
  c.source = longer.source ∧ c.exception = longer.exception ∧
    c.entries <+: longer.entries

namespace Database

open Uncaught.Graph Relation

variable {db : Database} {source : Signature}
variable {paths : List (List Signature)}

------------------------------------------------------------
-- Callers And Exceptions
------------------------------------------------------------

/- A method is no caller of another one twice. -/
theorem nodup_callersIn
    (db : Database)
    (m : Signature) :
    (db.callersIn m).Nodup :=
  (Signature.sort_perm _).nodup_iff.mpr (Table.nodup _)

/- With named packages, callers come in increasing order. -/
theorem Indexed.pairwise_lt_callersIn
    (hIndexed : db.Indexed)
    (hNamed : ∀ m ∈ db.callers.keys, m.NamedPackage)
    (m : Signature) :
    (db.callersIn m).Pairwise fun a b =>
      Signature.order a b = .lt := by
  apply Signature.pairwise_lt_sort (Table.nodup _)
  intro caller hCaller
  apply hNamed caller
  exact hIndexed.closed m caller
    ((Signature.mem_sort _ _).mpr hCaller)

theorem pairwise_lt_exceptionsIn
    (db : Database)
    (source : Signature) :
    (db.exceptionsIn source).Pairwise (· < ·) := by
  unfold exceptionsIn
  cases db.facts.get? source with
  | none => exact .nil
  | some f => exact pairwise_lt_nameSet _

------------------------------------------------------------
-- Exact Enumerator
------------------------------------------------------------

/-
  Along paths from a source, the chains have the methods of the
  paths, path after path, each with all the exceptions.
-/
theorem map_chainsOfPaths
    (hPaths :
      ∀ path ∈ paths, IsPath db.callersIn source path) :
    (db.chainsOfPaths source paths).map
        (fun c => (c.methods, c.exception)) =
      paths.flatMap fun path =>
        (db.exceptionsIn source).map fun exc =>
          (path, some exc) := by
  unfold chainsOfPaths
  rw [List.map_flatMap, List.flatMap_def, List.flatMap_def]
  congr 1
  apply List.map_congr_left
  intro path hMem
  rw [List.map_map]
  apply List.map_congr_left
  intro exc _
  have hMethods :=
    methods_chainAlong_tail db exc (hPaths path hMem)
  rw [Function.comp_apply, hMethods]
  rfl

/-
  In every sealed database, the exact enumerator goes along the
  paths of callers from the source that meet no method twice
  and that no further caller extends. It has each of them once,
  in the order of their methods if all packages have names, and
  gives one chain for each exception of the source, these in
  increasing order.
-/
theorem allChainsFrom_exact
    {settings : Settings}
    {steps : List Step}
    (hRun : run settings steps = db)
    (hSealed : db.isSealed = true)
    (source : Signature) :
    ∃ paths exceptions chains,
      maximalPaths db.callersIn db.callers.keys source =
          paths ∧
        db.exceptionsOf source = .ok exceptions ∧
        db.allChainsFrom source = .ok chains ∧
        (∀ path, path ∈ paths ↔
          path.head? = some source ∧
            path.IsChain db.CalledBy ∧ path.Nodup ∧
            ∀ last, path.getLast? = some last →
              ∀ caller, db.CalledBy last caller →
                caller ∈ path) ∧
        paths.Nodup ∧
        ((∀ m ∈ db.callers.keys, m.NamedPackage) →
          paths.Pairwise
            (List.Lex fun a b => Signature.order a b = .lt)) ∧
        exceptions.Pairwise (· < ·) ∧
        chains.map (fun c => (c.methods, c.exception)) =
          paths.flatMap fun path =>
            exceptions.map fun exc => (path, some exc) := by
  have hIndexed : db.Indexed := by
    rw [← hRun]
    exact indexed_run settings steps
  have hKeys : db.callers.keys.Nodup := db.callers.nodup
  refine ⟨_, _, _, rfl, exceptionsOf_eq hSealed source,
    allChainsFrom_eq hSealed source, ?_, ?_, ?_, ?_, ?_⟩
  · intro path
    rw [mem_maximalPaths_iff hKeys hIndexed.closed,
      ← next_callersIn]
    constructor
    · intro hMaximal
      exact ⟨hMaximal.head, hMaximal.steps, hMaximal.nodup,
        hMaximal.closed⟩
    · rintro ⟨hHead, hSteps, hNodup, hClosed⟩
      exact ⟨⟨hHead, hSteps, hNodup⟩, hClosed⟩
  · exact nodup_maximalPaths (nodup_callersIn db) _ source
  · intro hNamed
    exact pairwise_lex_maximalPaths
      (hIndexed.pairwise_lt_callersIn hNamed) _ source
  · exact pairwise_lt_exceptionsIn db source
  · apply map_chainsOfPaths
    intro path hPath
    exact isPath_of_mem_maximalPaths db.callers.nodup hPath

/-
  A source with two callers, one of which also calls the other:
  the tree cuts one path short.
-/
def callersInARow : List Addition := [
  .facts {
    signature := sampleMethod "a"
    thrown := ["E"] },
  .facts {
    signature := sampleMethod "b"
    calls := [sampleMethod "a"] },
  .facts {
    signature := sampleMethod "c"
    calls := [sampleMethod "a", sampleMethod "b"] }]

theorem exists_built_callersInARow :
    ∃ db, BuiltFrom {} callersInARow db ∧
      db.allChainsFrom (sampleMethod "a") =
        .ok [
          ⟨sampleMethod "a",
            [⟨sampleMethod "b", false⟩,
              ⟨sampleMethod "c", false⟩], some "E"⟩,
          ⟨sampleMethod "a", [⟨sampleMethod "c", false⟩],
            some "E"⟩] ∧
      db.chainsFrom (sampleMethod "a") =
        .ok [
          ⟨sampleMethod "a", [⟨sampleMethod "b", false⟩],
            some "E"⟩,
          ⟨sampleMethod "a", [⟨sampleMethod "c", false⟩],
            some "E"⟩] ∧
      db.exceptionsOf (sampleMethod "a") = .ok ["E"] := by
  refine ⟨_, ⟨_, rfl, rfl, rfl⟩, ?_, ?_, ?_⟩
  · cbv
  · cbv
  · cbv

/- The sample has two paths that no further caller extends. -/
theorem allChainsFrom_exact_callersInARow :
    ∃ db, BuiltFrom {} callersInARow db ∧
      db.isSealed = true ∧
      ∀ path : List Signature,
        path.head? = some (sampleMethod "a") ∧
            path.IsChain db.CalledBy ∧ path.Nodup ∧
            (∀ last, path.getLast? = some last →
              ∀ caller, db.CalledBy last caller →
                caller ∈ path) ↔
          path ∈ [["a", "b", "c"].map sampleMethod,
            ["a", "c"].map sampleMethod] := by
  rcases exists_built_callersInARow with
    ⟨db, hBuilt, hAll, -, hThrows⟩
  rcases hBuilt.graphOf with ⟨records, hGraph⟩
  rcases allChainsFrom_exact hBuilt.run_eq hGraph.isSealed
      (sampleMethod "a") with
    ⟨paths, exceptions, chains, -, hExceptions, hChains, hPaths,
      -, -, -, hMap⟩
  rw [hThrows] at hExceptions
  rw [hAll] at hChains
  cases hExceptions
  cases hChains
  have hFound :=
    congrArg (List.map Prod.fst) hMap
  rw [List.map_flatMap] at hFound
  simp only [List.map_cons, List.map_nil,
    List.flatMap_singleton'] at hFound
  refine ⟨db, hBuilt, hGraph.isSealed, ?_⟩
  intro path
  rw [← hPaths path, ← hFound]
  rfl

------------------------------------------------------------
-- Both Enumerators
------------------------------------------------------------

/- Entries depend on the path up to their method only. -/
theorem entriesAlong_prefix
    (db : Database)
    (exc : String)
    (callee : Signature)
    {callers longer : List Signature}
    (hPrefix : callers <+: longer) :
    db.entriesAlong exc callee callers <+:
      db.entriesAlong exc callee longer := by
  induction callers generalizing callee longer with
  | nil => exact List.nil_prefix
  | cons caller rest ih =>
      rcases hPrefix with ⟨more, rfl⟩
      rw [List.cons_append, entriesAlong, entriesAlong]
      exact List.cons_prefix_cons.mpr
        ⟨rfl, ih caller (List.prefix_append rest more)⟩

/- Chains begin one another as their paths do. -/
theorem begins_chainAlong
    (db : Database)
    (exc : String)
    {path longer : List Signature}
    (hPath : IsPath db.callersIn source path)
    (hLonger : IsPath db.callersIn source longer)
    (hPrefix : path <+: longer) :
    (db.chainAlong exc source path.tail).Begins
      (db.chainAlong exc source longer.tail) := by
  rcases hPath.eq_cons with ⟨callers, rfl⟩
  rcases hLonger.eq_cons with ⟨more, rfl⟩
  exact ⟨rfl, rfl, db.entriesAlong_prefix exc source
    (List.cons_prefix_cons.mp hPrefix).2⟩

theorem methods_prefix_of_begins
    {c longer : Chain}
    (hBegins : c.Begins longer) :
    c.methods <+: longer.methods := by
  rcases hBegins with ⟨hSource, -, hEntries⟩
  unfold Chain.methods
  rw [hSource]
  exact List.cons_prefix_cons.mpr
    ⟨rfl, hEntries.map Entry.method⟩

/-
  No chain begins with two of the chains along paths that part:
  their methods part, or their exceptions differ.
-/
theorem pairwise_not_begins
    (hPaths :
      ∀ path ∈ paths, IsPath db.callersIn source path)
    (hApart : paths.Pairwise Apart) :
    (db.chainsOfPaths source paths).Pairwise fun c other =>
      ∀ longer, c.Begins longer → ¬other.Begins longer := by
  unfold chainsOfPaths
  rw [List.pairwise_flatMap]
  constructor
  · intro path _
    rw [List.pairwise_map]
    apply (pairwise_lt_exceptionsIn db source).imp
    intro exc other hOrder longer hLeft hRight
    have hSame : some exc = some other :=
      hLeft.2.1.trans hRight.2.1.symm
    rw [Option.some.inj hSame] at hOrder
    exact absurd hOrder (String.lt_irrefl other)
  · apply (List.Pairwise.and_mem.mp hApart).imp
    rintro path other ⟨hMem, hOther, hParts⟩ c hc d hd longer
      hLeft hRight
    rcases List.mem_map.mp hc with ⟨exc, -, rfl⟩
    rcases List.mem_map.mp hd with ⟨exc', -, rfl⟩
    have hFirst := methods_prefix_of_begins hLeft
    have hSecond := methods_prefix_of_begins hRight
    rw [methods_chainAlong_tail db exc (hPaths path hMem)]
      at hFirst
    rw [methods_chainAlong_tail db exc' (hPaths other hOther)]
      at hSecond
    exact hParts.not_both_prefix hFirst hSecond

theorem length_chainsOfPaths
    (db : Database)
    (source : Signature)
    (paths : List (List Signature)) :
    (db.chainsOfPaths source paths).length =
      paths.length * (db.exceptionsIn source).length := by
  unfold chainsOfPaths
  simp [List.length_flatMap, List.map_const']

/- If there is a path, the chains have all the exceptions. -/
theorem exists_exception_iff
    (hSome : ∃ path, path ∈ paths)
    (exc : String) :
    (∃ c ∈ db.chainsOfPaths source paths,
        c.exception = some exc) ↔
      exc ∈ db.exceptionsIn source := by
  constructor
  · rintro ⟨c, hChain, hExc⟩
    rcases (mem_chainsOfPaths_iff _ _ _ _).mp hChain with
      ⟨path, -, other, hOther, rfl⟩
    cases hExc
    exact hOther
  · intro hExc
    rcases hSome with ⟨path, hPath⟩
    refine ⟨db.chainAlong exc source path.tail, ?_, rfl⟩
    exact (mem_chainsOfPaths_iff _ _ _ _).mpr
      ⟨path, hPath, exc, hExc, rfl⟩

/-
  In every sealed database and for every source: each chain
  along the tree is the beginning of an exact chain for the
  same exception, and no exact chain has two such beginnings.
  So there are no more chains along the tree than exact ones.
  Both have the same methods and the same exceptions.
-/
theorem chainsFrom_begin_allChainsFrom
    {settings : Settings}
    {steps : List Step}
    (hRun : run settings steps = db)
    (hSealed : db.isSealed = true)
    (source : Signature) :
    ∃ tree all,
      db.chainsFrom source = .ok tree ∧
        db.allChainsFrom source = .ok all ∧
        (∀ c ∈ tree, ∃ longer ∈ all, c.Begins longer) ∧
        tree.Pairwise (fun c other =>
          ∀ longer, c.Begins longer →
            ¬other.Begins longer) ∧
        tree.length ≤ all.length ∧
        (∀ m, (∃ c ∈ tree, m ∈ c.methods) ↔
          ∃ c ∈ all, m ∈ c.methods) ∧
        ∀ exc, (∃ c ∈ tree, c.exception = some exc) ↔
          ∃ c ∈ all, c.exception = some exc := by
  have hIndexed : db.Indexed := by
    rw [← hRun]
    exact indexed_run settings steps
  have hKeys : db.callers.keys.Nodup := db.callers.nodup
  have hTree :
      ∀ path ∈ treePaths db.callersIn db.callers.keys source,
        IsPath db.callersIn source path := by
    intro path hPath
    exact isPath_of_mem_treePaths hKeys hPath
  have hMaximal :
      ∀ path ∈ maximalPaths db.callersIn db.callers.keys source,
        IsPath db.callersIn source path := by
    intro path hPath
    exact isPath_of_mem_maximalPaths hKeys hPath
  have hTreeNodes :
      ∀ m, (∃ path ∈ treePaths db.callersIn db.callers.keys
          source, m ∈ path) ↔
        ReflTransGen (Next db.callersIn) source m :=
    exists_mem_treePaths_iff hKeys hIndexed.closed
  have hMaximalNodes :
      ∀ m, (∃ path ∈ maximalPaths db.callersIn db.callers.keys
          source, m ∈ path) ↔
        ReflTransGen (Next db.callersIn) source m :=
    exists_mem_maximalPaths_iff hKeys hIndexed.closed
  refine ⟨_, _, chainsFrom_eq hSealed source,
    allChainsFrom_eq hSealed source, ?_, ?_, ?_, ?_, ?_⟩
  · intro c hChain
    rcases (mem_chainsOfPaths_iff _ _ _ _).mp hChain with
      ⟨path, hPath, exc, hExc, rfl⟩
    rcases exists_maximal_of_isPath hIndexed.closed
        (hTree path hPath) with
      ⟨longer, hLonger, hPrefix⟩
    refine ⟨db.chainAlong exc source longer.tail, ?_, ?_⟩
    · exact (mem_chainsOfPaths_iff _ _ _ _).mpr
        ⟨longer, hLonger, exc, hExc, rfl⟩
    · exact begins_chainAlong db exc (hTree path hPath)
        (hMaximal longer hLonger) hPrefix
  · exact pairwise_not_begins hTree
      (pairwise_apart_treePaths _ _ _)
  · rw [length_chainsOfPaths, length_chainsOfPaths]
    exact Nat.mul_le_mul_right _
      (length_treePaths_le hKeys hIndexed.closed)
  · intro m
    by_cases hThrows : db.exceptionsIn source = []
    · simp [chainsOfPaths, hThrows]
    · rw [exists_mem_methods_iff hTree hThrows,
        exists_mem_methods_iff hMaximal hThrows,
        hTreeNodes m, hMaximalNodes m]
  · intro exc
    rcases (hTreeNodes source).mpr .refl with ⟨path, hPath, -⟩
    rcases (hMaximalNodes source).mpr .refl with
      ⟨longer, hLonger, -⟩
    rw [exists_exception_iff ⟨path, hPath⟩,
      exists_exception_iff ⟨longer, hLonger⟩]

/- The chain that the tree cuts short begins an exact one. -/
theorem chainsFrom_begin_allChainsFrom_callersInARow :
    ∃ db, BuiltFrom {} callersInARow db ∧
      db.isSealed = true ∧
      ∃ all, db.allChainsFrom (sampleMethod "a") = .ok all ∧
        2 ≤ all.length ∧
        ∃ longer ∈ all,
          Chain.Begins
            ⟨sampleMethod "a", [⟨sampleMethod "b", false⟩],
              some "E"⟩ longer := by
  rcases exists_built_callersInARow with
    ⟨db, hBuilt, -, hTree, -⟩
  rcases hBuilt.graphOf with ⟨records, hGraph⟩
  rcases chainsFrom_begin_allChainsFrom hBuilt.run_eq
      hGraph.isSealed (sampleMethod "a") with
    ⟨tree, all, hChains, hAll, hBegins, -, hLength, -⟩
  rw [hTree] at hChains
  cases hChains
  exact ⟨db, hBuilt, hGraph.isSealed, all, hAll, hLength,
    hBegins _ List.mem_cons_self⟩

end Database

end Uncaught
