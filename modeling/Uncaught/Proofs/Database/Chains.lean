import Uncaught.Proofs.Database.Runs
import Uncaught.Proofs.Graph.MaximalPaths
import Uncaught.Proofs.Graph.TreePaths

/-
  The chains that a sealed database gives: each belongs to a
  path of callers and to an exception, and the chains along the
  breadth-first tree have just the methods that can be reached
  from the source.

  Key definitions include:
    * `Database.CalledBy`
    * `Database.handles`
    * `Database.chainAlong`

  Main declarations:
    * `Database.chainsFrom_eq`
    * `Database.allChainsFrom_eq`
    * `Database.chainsFrom_exact`
-/

namespace Uncaught

namespace Database

open Uncaught.Graph Relation

variable {db : Database}

------------------------------------------------------------
-- Chains Along A Path
------------------------------------------------------------

/- A step of the call graph, from a method to a caller. -/
def CalledBy
    (db : Database)
    (callee caller : Signature) : Prop :=
  ∃ e, db.edgeBetween callee caller = some e

theorem next_callersIn
    (db : Database) :
    Next db.callersIn = db.CalledBy := by
  funext callee caller
  exact propext (mem_callersIn_iff db callee caller)

/-
  Whether a caller handles an exception, by the types that it
  catches around the call in the index.
-/
def handles
    (db : Database)
    (exc : String)
    (callee caller : Signature) : Bool :=
  match db.edgeBetween callee caller with
  | none => false
  | some e =>
      (db.handlersIn caller e.written).any (db.takes exc)

/- The entries for a path of callers above a method. -/
def entriesAlong
    (db : Database)
    (exc : String)
    (callee : Signature) : List Signature → List Entry
  | [] => []
  | caller :: rest =>
      ⟨caller, db.handles exc callee caller⟩ ::
        db.entriesAlong exc caller rest

/- The chain of an exception along a path of callers. -/
def chainAlong
    (db : Database)
    (exc : String)
    (source : Signature)
    (callers : List Signature) : Chain :=
  ⟨source, db.entriesAlong exc source callers, some exc⟩

theorem map_method_entriesAlong
    (db : Database)
    (exc : String)
    (callee : Signature)
    (callers : List Signature) :
    (db.entriesAlong exc callee callers).map Entry.method =
      callers := by
  induction callers generalizing callee with
  | nil => rfl
  | cons caller rest ih =>
      rw [entriesAlong, List.map_cons, ih]

@[simp] theorem methods_chainAlong
    (db : Database)
    (exc : String)
    (source : Signature)
    (callers : List Signature) :
    (db.chainAlong exc source callers).methods =
      source :: callers := by
  unfold chainAlong Chain.methods
  rw [map_method_entriesAlong]

theorem isHandled_eq
    (hSealed : db.isSealed = true)
    {callee caller : Signature}
    (hCalled : db.CalledBy callee caller)
    (exc : String) :
    db.isHandled callee caller exc =
      .ok (db.handles exc callee caller) := by
  rcases hCalled with ⟨e, hEdge⟩
  unfold isHandled handles
  rw [hEdge]
  cases hHandlers : db.handlersIn caller e.written with
  | nil => simp [hHandlers]
  | cons first rest =>
      simp [hHandlers, checkSealed, hSealed, bind,
        Except.bind, pure, Except.pure]

theorem entriesAbove_eq
    (hSealed : db.isSealed = true)
    (exc : String)
    {callee : Signature}
    {callers : List Signature}
    (hSteps : (callee :: callers).IsChain db.CalledBy) :
    db.entriesAbove exc callee callers =
      .ok (db.entriesAlong exc callee callers) := by
  induction callers generalizing callee with
  | nil => rfl
  | cons caller rest ih =>
      rcases List.isChain_cons_cons.mp hSteps with
        ⟨hCalled, hRest⟩
      rw [entriesAbove, isHandled_eq hSealed hCalled,
        ih hRest]
      rfl

/- A path of callers gives one chain for each exception. -/
theorem chainsAlong_eq
    (hSealed : db.isSealed = true)
    (exceptions : List String)
    {source : Signature}
    {path : List Signature}
    (hPath : IsPath db.callersIn source path) :
    db.chainsAlong exceptions path =
      .ok (exceptions.map fun exc =>
        db.chainAlong exc source path.tail) := by
  rcases hPath.eq_cons with ⟨callers, rfl⟩
  have hSteps := hPath.steps
  rw [next_callersIn] at hSteps
  apply mapM_eq_ok
  intro exc _
  rw [entriesAbove_eq hSealed exc hSteps]
  rfl

/- The chains of a source along paths, path after path. -/
def chainsOfPaths
    (db : Database)
    (source : Signature)
    (paths : List (List Signature)) : List Chain :=
  paths.flatMap fun path =>
    (db.exceptionsIn source).map fun exc =>
      db.chainAlong exc source path.tail

theorem mem_chainsOfPaths_iff
    (db : Database)
    (source : Signature)
    (paths : List (List Signature))
    (c : Chain) :
    c ∈ db.chainsOfPaths source paths ↔
      ∃ path ∈ paths, ∃ exc ∈ db.exceptionsIn source,
        db.chainAlong exc source path.tail = c := by
  unfold chainsOfPaths
  simp only [List.mem_flatMap, List.mem_map]

theorem exceptionsOf_eq
    (hSealed : db.isSealed = true)
    (source : Signature) :
    db.exceptionsOf source =
      .ok (db.exceptionsIn source) := by
  simp [exceptionsOf, checkSealed, hSealed, bind, Except.bind,
    pure, Except.pure]

theorem exceptionsIn_of_not_mem
    {source : Signature}
    (hNoFacts : source ∉ db.facts.keys) :
    db.exceptionsIn source = [] := by
  unfold exceptionsIn
  rw [(Table.get?_eq_none_iff _ _).mpr hNoFacts]

/-
  Along paths from the source every chain is given. A source
  without facts has none, as no exception leaves it.
-/
theorem chainsOver_eq
    (hSealed : db.isSealed = true)
    {source : Signature}
    {paths : List Signature → List (List Signature)}
    (hPaths :
      ∀ path ∈ paths db.callers.keys,
        IsPath db.callersIn source path) :
    db.chainsOver paths source =
      .ok (db.chainsOfPaths source
        (paths db.callers.keys)) := by
  unfold chainsOver chainsOfPaths
  apply bind_eq_ok_iff.mpr
  refine ⟨(), by simp [checkSealed, hSealed], ?_⟩
  by_cases hFacts : source ∈ db.facts.keys
  · rw [if_pos ((Table.contains_iff _ _).mpr hFacts),
      List.flatMap_def]
    apply bind_eq_ok_iff.mpr
    refine ⟨_, mapM_eq_ok ?_, rfl⟩
    intro path hPath
    exact chainsAlong_eq hSealed _ (hPaths path hPath)
  · rw [if_neg (mt (Table.contains_iff _ _).mp hFacts),
      exceptionsIn_of_not_mem hFacts]
    simp [pure, Except.pure]

/- The chains along the tree of callers. -/
theorem chainsFrom_eq
    (hSealed : db.isSealed = true)
    (source : Signature) :
    db.chainsFrom source =
      .ok (db.chainsOfPaths source
        (treePaths db.callersIn db.callers.keys source)) := by
  apply chainsOver_eq hSealed
  intro path hPath
  exact isPath_of_mem_treePaths db.callers.nodup hPath

/- The chains along all paths of callers. -/
theorem allChainsFrom_eq
    (hSealed : db.isSealed = true)
    (source : Signature) :
    db.allChainsFrom source =
      .ok (db.chainsOfPaths source
        (maximalPaths db.callersIn db.callers.keys
          source)) := by
  apply chainsOver_eq hSealed
  intro path hPath
  exact isPath_of_mem_maximalPaths db.callers.nodup hPath

------------------------------------------------------------
-- Coverage
------------------------------------------------------------

/- The callers of a method stand in the index. -/
theorem Indexed.closed
    (hIndexed : db.Indexed)
    (callee : Signature) :
    ∀ caller ∈ db.callersIn callee,
      caller ∈ db.callers.keys := by
  intro caller hCaller
  rcases (mem_callersIn_iff db callee caller).mp hCaller with
    ⟨e, hEdge⟩
  exact hIndexed.caller_mem callee caller e hEdge

/- A chain along a path has the methods of the path. -/
theorem methods_chainAlong_tail
    (db : Database)
    (exc : String)
    {source : Signature}
    {path : List Signature}
    (hPath : IsPath db.callersIn source path) :
    (db.chainAlong exc source path.tail).methods = path := by
  rcases hPath.eq_cons with ⟨callers, rfl⟩
  exact methods_chainAlong db exc source callers

/- The methods of a chain along paths are one of the paths. -/
theorem methods_mem_of_mem_chainsOfPaths
    {source : Signature}
    {paths : List (List Signature)}
    (hPaths :
      ∀ path ∈ paths, IsPath db.callersIn source path)
    {c : Chain}
    (hChain : c ∈ db.chainsOfPaths source paths) :
    c.methods ∈ paths := by
  rcases (mem_chainsOfPaths_iff _ _ _ _).mp hChain with
    ⟨path, hPath, exc, -, rfl⟩
  rw [methods_chainAlong_tail db exc (hPaths path hPath)]
  exact hPath

/- If something is thrown, every path has a chain. -/
theorem exists_mem_methods_iff
    {source : Signature}
    {paths : List (List Signature)}
    (hPaths :
      ∀ path ∈ paths, IsPath db.callersIn source path)
    (hThrows : db.exceptionsIn source ≠ [])
    (m : Signature) :
    (∃ c ∈ db.chainsOfPaths source paths, m ∈ c.methods) ↔
      ∃ path ∈ paths, m ∈ path := by
  constructor
  · rintro ⟨c, hChain, hMethod⟩
    exact ⟨c.methods,
      methods_mem_of_mem_chainsOfPaths hPaths hChain, hMethod⟩
  · rintro ⟨path, hPath, hMethod⟩
    rcases List.exists_mem_of_ne_nil _ hThrows with ⟨exc, hExc⟩
    refine ⟨db.chainAlong exc source path.tail, ?_, ?_⟩
    · exact (mem_chainsOfPaths_iff _ _ _ _).mpr
        ⟨path, hPath, exc, hExc, rfl⟩
    · rw [methods_chainAlong_tail db exc (hPaths path hPath)]
      exact hMethod

/-
  In every sealed database, each chain of a source goes up from
  it, call by call, and meets no method twice. The chains of a
  source that throws have just the methods that are reached
  from it through calls.
-/
theorem chainsFrom_exact
    {settings : Settings}
    {steps : List Step}
    (hRun : run settings steps = db)
    (hSealed : db.isSealed = true)
    {source : Signature}
    (hThrows : db.exceptionsOf source ≠ .ok []) :
    ∃ chains, db.chainsFrom source = .ok chains ∧
      (∀ c ∈ chains,
        c.methods.head? = some source ∧
          c.methods.IsChain db.CalledBy ∧
            c.methods.Nodup) ∧
      ∀ m, (∃ c ∈ chains, m ∈ c.methods) ↔
        ReflTransGen db.CalledBy source m := by
  have hIndexed : db.Indexed := by
    rw [← hRun]
    exact indexed_run settings steps
  have hSome : db.exceptionsIn source ≠ [] := by
    intro hNone
    apply hThrows
    rw [exceptionsOf_eq hSealed, hNone]
  have hPaths :
      ∀ path ∈ treePaths db.callersIn db.callers.keys source,
        IsPath db.callersIn source path := by
    intro path hPath
    exact isPath_of_mem_treePaths db.callers.nodup hPath
  refine ⟨_, chainsFrom_eq hSealed source, ?_, ?_⟩
  · intro c hChain
    have hPath := hPaths c.methods
      (methods_mem_of_mem_chainsOfPaths hPaths hChain)
    rw [← next_callersIn]
    exact ⟨hPath.head, hPath.steps, hPath.nodup⟩
  · intro m
    rw [exists_mem_methods_iff hPaths hSome, ← next_callersIn]
    exact exists_mem_treePaths_iff db.callers.nodup
      hIndexed.closed m

/- A method of the class that the samples are about. -/
def sampleMethod
    (name : String) : Signature :=
  { owner := "A", name }

/-
  A source with two callers that call each other, one of them
  also itself; above both stands a third method.
-/
def recursiveCallers : List Addition := [
  .facts {
    signature := sampleMethod "source"
    thrown := ["E"] },
  .facts {
    signature := sampleMethod "left"
    calls := ["source", "left", "right"].map sampleMethod },
  .facts {
    signature := sampleMethod "right"
    calls := ["source", "left"].map sampleMethod },
  .facts {
    signature := sampleMethod "top"
    calls := ["left", "right"].map sampleMethod }]

theorem exists_built_recursiveCallers :
    ∃ db, BuiltFrom {} recursiveCallers db ∧
      db.facts.get? (sampleMethod "source") = some {
        signature := sampleMethod "source"
        thrown := ["E"] } ∧
      db.CallsAs (sampleMethod "left") (sampleMethod "source")
        (sampleMethod "source") ∧
      db.CallsAs (sampleMethod "top") (sampleMethod "left")
        (sampleMethod "left") := by
  refine ⟨_, ⟨_, rfl, rfl, rfl⟩, rfl, ?_, ?_⟩
  · exact ⟨_, rfl, by decide, .inl rfl⟩
  · exact ⟨_, rfl, by decide, .inl rfl⟩

/- The method above the recursion is on some chain. -/
theorem chainsFrom_exact_recursiveCallers :
    ∃ db, BuiltFrom {} recursiveCallers db ∧
      db.exceptionsOf (sampleMethod "source") ≠ .ok [] ∧
      ∃ chains,
        db.chainsFrom (sampleMethod "source") = .ok chains ∧
          ∃ c ∈ chains,
            sampleMethod "top" ∈ c.methods ∧
              c.methods.Nodup := by
  rcases exists_built_recursiveCallers with
    ⟨db, hBuilt, hFacts, hLeft, hTop⟩
  rcases hBuilt.graphOf with ⟨records, hGraph⟩
  have hNames := hBuilt.ownNames (by
    simp [recursiveCallers, Addition.OwnName])
  have hThrown : "E" ∈ db.exceptionsIn (sampleMethod "source") := by
    simp [exceptionsIn, hFacts, MethodFacts.exceptions]
  have hThrows :
      db.exceptionsOf (sampleMethod "source") ≠ .ok [] := by
    rw [exceptionsOf_eq hGraph.isSealed]
    intro hNone
    rw [Except.ok.inj hNone] at hThrown
    simp at hThrown
  rcases chainsFrom_exact hBuilt.run_eq hGraph.isSealed
      hThrows with
    ⟨chains, hChains, hSound, hCovered⟩
  have hReached :
      ReflTransGen db.CalledBy (sampleMethod "source")
        (sampleMethod "top") :=
    (ReflTransGen.single
      ((hGraph.exists_edgeBetween_iff hNames _ _).mpr
        ⟨_, hLeft⟩)).tail
      ((hGraph.exists_edgeBetween_iff hNames _ _).mpr
        ⟨_, hTop⟩)
  rcases (hCovered _).mpr hReached with ⟨c, hChain, hMethod⟩
  exact ⟨db, hBuilt, hThrows, chains, hChains, c, hChain,
    hMethod, (hSound c hChain).2.2⟩

end Database

end Uncaught
