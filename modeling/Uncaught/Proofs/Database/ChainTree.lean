import Uncaught.Proofs.Database.CheckedQueries
import Uncaught.Proofs.Graph.Distance

/-
  The chains of a source as a tree. The paths that a search of
  the callers goes along are shortest ones, and agree up to each
  method that they share. They end in the leaves of the tree,
  and each leaf has one chain for each exception.

  Main declarations:
    * `Database.exists_searchTree`
    * `Database.chains_along_shortest_paths`
    * `Database.BuiltFrom.chains_counted`
-/

namespace Uncaught

namespace Database

open Uncaught.Graph Relation

variable {db : Database} {source : Signature}
variable {settings : Settings} {additions : List Addition}

------------------------------------------------------------
-- Paths Of A Search
------------------------------------------------------------

/- A search for chains ends with the paths of the tree. -/
theorem exists_searchTree
    (hSealed : db.isSealed = true)
    (hIndexed : db.Indexed)
    (hFacts : source ∈ db.facts.keys) :
    Settles
      (fun bound =>
        (db.searchTree bound (Table.empty.insert source none) []
          [source]).run)
      (some (.ok (treePaths db.callersIn db.callers.keys
        source))) :=
  searchTree_settles hSealed hIndexed
    (Searching.start (hIndexed.facts_mem hSealed source hFacts))
    []

/-
  In every sealed database, the chains of a method with facts go
  along shortest paths: the search for them ends, and each
  method comes at its distance from the source. Two paths agree
  up to each method that they share, no path comes before a
  shorter one, and together they have all the methods that are
  reached.
-/
theorem chains_along_shortest_paths
    {steps : List Step}
    (hRun : run settings steps = db)
    (hSealed : db.isSealed = true)
    (hFacts : source ∈ db.facts.keys) :
    ∃ paths,
      Settles
        (fun bound =>
          (db.searchTree bound (Table.empty.insert source none)
            [] [source]).run)
        (some (.ok paths)) ∧
      treePaths db.callersIn db.callers.keys source = paths ∧
      (∀ path ∈ paths, ∀ i m, path[i]? = some m →
        IsDistance db.CalledBy source i m) ∧
      (∀ p ∈ paths, ∀ q ∈ paths, ∀ i j m,
        p[i]? = some m → q[j]? = some m →
          p.take (i + 1) = q.take (j + 1)) ∧
      paths.Pairwise (fun p q => p.length ≤ q.length) ∧
      ∀ m, (∃ path ∈ paths, m ∈ path) ↔
        ReflTransGen db.CalledBy source m := by
  have hIndexed : db.Indexed := by
    rw [← hRun]
    exact indexed_run settings steps
  have hNodup : db.callers.keys.Nodup := db.callers.nodup
  refine ⟨_, exists_searchTree hSealed hIndexed hFacts, rfl, ?_,
    ?_, ?_, ?_⟩
  · intro path hPath i m hAt
    rw [← next_callersIn]
    exact isDistance_of_getElem? hNodup hIndexed.closed hPath hAt
  · intro p hp q hq i j m hLeft hRight
    exact take_eq_of_shared hNodup hp hq hLeft hRight
  · exact pairwise_length_treePaths hNodup hIndexed.closed source
  · intro m
    rw [← next_callersIn]
    exact exists_mem_treePaths_iff hNodup hIndexed.closed m

/- The last caller in a row is one call away all the same. -/
theorem chains_along_shortest_paths_callersInARow :
    ∃ db, BuiltFrom {} callersInARow db ∧
      db.isSealed = true ∧
      sampleMethod "a" ∈ db.facts.keys ∧
      IsDistance db.CalledBy (sampleMethod "a") 1
        (sampleMethod "c") := by
  have hSample :
      ∃ db, BuiltFrom {} callersInARow db ∧
        sampleMethod "a" ∈ db.facts.keys ∧
        treePaths db.callersIn db.callers.keys
            (sampleMethod "a") =
          [["a", "b"].map sampleMethod,
            ["a", "c"].map sampleMethod] := by
    refine ⟨_, ⟨_, rfl, rfl, rfl⟩, by decide, ?_⟩
    cbv
  rcases hSample with ⟨db, hBuilt, hFacts, hPaths⟩
  rcases hBuilt.graphOf with ⟨records, hGraph⟩
  rcases chains_along_shortest_paths hBuilt.run_eq
      hGraph.isSealed hFacts with
    ⟨paths, -, hTree, hDistance, -⟩
  rw [hPaths] at hTree
  refine ⟨db, hBuilt, hGraph.isSealed, hFacts, ?_⟩
  apply hDistance (["a", "c"].map sampleMethod)
  · rw [← hTree]
    simp
  · rfl

------------------------------------------------------------
-- Exceptions And Sources
------------------------------------------------------------

/- What leaves a method is declared, or thrown in its body. -/
theorem BuiltFrom.mem_exceptionsIn_iff
    (hBuilt : BuiltFrom settings additions db)
    {f : MethodFacts}
    (hFacts : db.facts.get? source = some f)
    (exc : String) :
    exc ∈ db.exceptionsIn source ↔
      exc ∈ source.throws ∨ exc ∈ f.thrown := by
  rw [exceptionsIn, hFacts]
  simp only [MethodFacts.exceptions, mem_nameSet,
    List.mem_append, (hBuilt.facts hFacts).1]

theorem sources_eq
    (hSealed : db.isSealed = true)
    (prefixes : Option (List String)) :
    db.sources prefixes =
      .ok ((Signature.sort db.facts.keys).filter
        (db.throwsItself prefixes)) := by
  simp [sources, checkSealed, hSealed, bind, Except.bind, pure,
    Except.pure]

/- A source of exceptions has some, whatever the platform is. -/
theorem BuiltFrom.exceptionsIn_ne_nil
    (hBuilt : BuiltFrom settings additions db)
    {prefixes : Option (List String)}
    (hThrows : db.throwsItself prefixes source = true) :
    db.exceptionsIn source ≠ [] := by
  unfold throwsItself at hThrows
  cases hFacts : db.facts.get? source with
  | none => simp [hFacts] at hThrows
  | some f =>
      rw [hFacts] at hThrows
      have hSome :
          ∃ exc, exc ∈ source.throws ∨ exc ∈ f.thrown := by
        simp only [Bool.or_eq_true, Bool.and_eq_true,
          Bool.not_eq_true', List.isEmpty_eq_false_iff] at hThrows
        rcases hThrows with hBody | ⟨-, hDeclared⟩
        · rcases List.exists_mem_of_ne_nil _ hBody with
            ⟨exc, hExc⟩
          exact ⟨exc, .inr hExc⟩
        · rcases List.exists_mem_of_ne_nil _ hDeclared with
            ⟨exc, hExc⟩
          exact ⟨exc, .inl hExc⟩
      rcases hSome with ⟨exc, hExc⟩
      exact List.ne_nil_of_mem
        ((hBuilt.mem_exceptionsIn_iff hFacts exc).mpr hExc)

------------------------------------------------------------
-- Number Of Chains
------------------------------------------------------------

/-
  In every built database, a method with facts has a chain for
  each leaf of the tree of its callers and each of its
  exceptions, in this order. The leaves are distinct methods,
  the reached ones that no path goes on from, and a source of
  exceptions has some chain.
-/
theorem BuiltFrom.chains_counted
    (hBuilt : BuiltFrom settings additions db)
    (hFacts : source ∈ db.facts.keys) :
    ∃ (paths : List (List Signature))
        (reached : List Signature)
        (exceptions : List String)
        (chains : List Chain),
      Settles
        (fun bound =>
          (db.searchTree bound (Table.empty.insert source none)
            [] [source]).run)
        (some (.ok paths)) ∧
      treePaths db.callersIn db.callers.keys source = paths ∧
      db.exceptionsOf source = .ok exceptions ∧
      db.chainsFrom source = .ok chains ∧
      (paths.map List.getLast?).Nodup ∧
      (paths.Pairwise fun p q => ¬p <+: q ∧ ¬q <+: p) ∧
      (∀ m, (∃ path ∈ paths, path.getLast? = some m) ↔
        ReflTransGen db.CalledBy source m ∧
          ∀ path ∈ paths, ∀ caller, ¬[m, caller] <:+: path) ∧
      exceptions.Pairwise (· < ·) ∧
      (∃ f, db.facts.get? source = some f ∧
        ∀ exc, exc ∈ exceptions ↔
          exc ∈ source.throws ∨ exc ∈ f.thrown) ∧
      (chains.map fun c => (c.methods, c.exception)) =
        (paths.flatMap fun path =>
          exceptions.map fun exc => (path, some exc)) ∧
      chains.length = paths.length * exceptions.length ∧
      reached.Nodup ∧
      (∀ m, m ∈ reached ↔
        ReflTransGen db.CalledBy source m) ∧
      chains.length ≤ reached.length * exceptions.length ∧
      ∀ prefixes, ∃ sources,
        db.sources prefixes = .ok sources ∧
          (source ∈ sources → chains ≠ []) := by
  rcases hBuilt.graphOf with ⟨records, hGraph⟩
  have hSealed := hGraph.isSealed
  have hIndexed : db.Indexed := by
    rw [← hBuilt.run_eq]
    exact indexed_run settings _
  have hNodup : db.callers.keys.Nodup := db.callers.nodup
  rcases (Table.mem_keys_iff _ _).mp hFacts with ⟨f, hFound⟩
  have hCount := length_chainsOfPaths db source
    (treePaths db.callersIn db.callers.keys source)
  refine ⟨_, (visits db.callersIn db.callers.keys source).map
      Prod.fst, _, _,
    exists_searchTree hSealed hIndexed hFacts, rfl,
    exceptionsOf_eq hSealed source, chainsFrom_eq hSealed source,
    nodup_getLast?_treePaths hNodup _ source,
    pairwise_apart_treePaths _ _ source, ?_,
    pairwise_lt_exceptionsIn db source,
    ⟨f, hFound, hBuilt.mem_exceptionsIn_iff hFound⟩,
    map_chainsOfPaths ?_, hCount, nodup_visits hNodup _ source,
    ?_, ?_, ?_⟩
  · intro m
    rw [← next_callersIn]
    exact exists_ending_treePath_iff hNodup hIndexed.closed m
  · intro path hPath
    exact isPath_of_mem_treePaths hNodup hPath
  · intro m
    rw [← next_callersIn]
    exact mem_map_fst_visits_iff hNodup hIndexed.closed m
  · rw [hCount, List.length_map]
    exact Nat.mul_le_mul_right _
      (length_treePaths_le_visits _ _ source)
  · intro prefixes
    refine ⟨_, sources_eq hSealed prefixes, ?_⟩
    intro hSource
    have hThrows := (List.mem_filter.mp hSource).2
    -- The source is reached from itself, so some path has it.
    rcases (exists_mem_treePaths_iff hNodup hIndexed.closed
        source).mpr .refl with
      ⟨path, hPath, -⟩
    apply List.ne_nil_of_length_pos
    rw [hCount]
    exact Nat.mul_pos (List.length_pos_of_mem hPath)
      (List.length_pos_iff.mpr
        (hBuilt.exceptionsIn_ne_nil hThrows))

/-
  A source that declares an exception and throws another one,
  under two callers.
-/
def callersOfTwo : List Addition :=
  let source : Signature :=
    { owner := "A", name := "a", throws := ["F"] }
  [.facts { signature := source, thrown := ["E"] },
    .facts {
      signature := sampleMethod "b"
      calls := [source] },
    .facts {
      signature := sampleMethod "c"
      calls := [source] }]

/- Two callers and two exceptions give four chains. -/
theorem BuiltFrom.chains_counted_callersOfTwo :
    ∃ db, BuiltFrom {} callersOfTwo db ∧
      ∃ source ∈ db.facts.keys, ∃ chains,
        db.chainsFrom source = .ok chains ∧
          chains.length = 4 := by
  have hSample :
      ∃ db, BuiltFrom {} callersOfTwo db ∧
        ∃ source ∈ db.facts.keys,
          (treePaths db.callersIn db.callers.keys
            source).length = 2 ∧
          db.exceptionsOf source = .ok ["E", "F"] := by
    refine ⟨_, ⟨_, rfl, rfl, rfl⟩,
      { owner := "A", name := "a", throws := ["F"] }, by decide,
      ?_, ?_⟩
    · cbv
    · cbv
  rcases hSample with
    ⟨db, hBuilt, source, hFacts, hLeaves, hThrows⟩
  rcases hBuilt.chains_counted hFacts with
    ⟨paths, -, exceptions, chains, -, hPaths, hExceptions,
      hChains, -, -, -, -, -, -, hCount, -⟩
  refine ⟨db, hBuilt, source, hFacts, chains, hChains, ?_⟩
  rw [hThrows] at hExceptions
  cases hExceptions
  rw [hCount, ← hPaths, hLeaves]
  rfl

end Database

end Uncaught
