import Mathlib
import Uncaught.Proofs.Database.Chains
import Uncaught.Proofs.Inheritance

/-
  Handling respects subtyping. What takes a class takes the
  classes below it, as far as they are known, so along one path
  of callers each entry that is handled for an exception is
  handled for the exceptions below it.

  Mathlib is imported whole, so that evaluating the samples adds
  no equations of library functions to this module.

  Key definitions include:
    * `Database.Linked`
    * `Entry.HandledIf`

  Main declarations:
    * `Database.linked_run`
    * `Database.takes_of_isCompatible`
    * `Chain.handledIndex_le`
    * `Database.handled_below`
-/

namespace Uncaught

open Uncaught.Graph

------------------------------------------------------------
-- Hierarchies of Runs
------------------------------------------------------------

namespace Database

variable {settings : Settings} {steps : List Step}
variable {db after : Database} {events : List Event}
variable {records : List ClassRecord}

/- The hierarchy, if there is one, is made of class records. -/
def Linked
    (db : Database) : Prop :=
  ∀ h, db.hierarchy = some h →
    ∃ records, h = .ofRecords records

theorem Linked.of_hierarchy_eq
    (hLinked : db.Linked)
    (hSame : after.hierarchy = db.hierarchy) :
    after.Linked := by
  intro h hHierarchy
  exact hLinked h (hSame.symm.trans hHierarchy)

theorem Linked.runStage
    {s : Stage}
    (hLinked : db.Linked)
    (hStage : db.runStage s = .ok (after, events)) :
    after.Linked := by
  cases s with
  | facts =>
      rcases completeFacts_spec hStage with ⟨facts, rfl, -⟩
      exact hLinked.of_hierarchy_eq rfl
  | classes =>
      rcases linkClasses_spec hStage with ⟨records, -, rfl⟩
      rintro h hHierarchy
      cases hHierarchy
      exact ⟨records, rfl⟩
  | calls =>
      rcases collectCalls_spec hStage with ⟨calls, rfl, -⟩
      exact hLinked.of_hierarchy_eq rfl
  | dispatches =>
      rcases dispatchCalls_spec hStage with
        ⟨dispatches, rfl, -⟩
      exact hLinked.of_hierarchy_eq rfl
  | callers =>
      rw [indexCallers_spec hStage]
      exact hLinked.of_hierarchy_eq rfl

theorem Linked.step
    (hLinked : db.Linked)
    (s : Step) :
    (db.step s).Linked := by
  cases s with
  | add a =>
      apply getD_preserves hLinked
      intro after hAdd
      rcases add_cases hAdd with
        ⟨f, -, hAfter⟩ | ⟨s, -, hAfter⟩ | ⟨name, b, -, hAfter⟩
      all_goals
        rw [hAfter]
        exact hLinked.of_hierarchy_eq rfl
  | assign s f =>
      apply getD_preserves hLinked
      intro after hAssign
      unfold assignFacts at hAssign
      split at hAssign
      · cases hAssign
      · cases hAssign
        exact hLinked.of_hierarchy_eq rfl
  | change s g => exact hLinked.of_hierarchy_eq rfl
  | stage s =>
      apply stage_preserves hLinked
      intro after events hStage
      exact hLinked.runStage hStage
  | build =>
      apply build_preserves (P := Linked) _ _ hLinked
      · intro db s after events hBefore hStage
        exact hBefore.runStage hStage
      · intro db hBefore
        exact hBefore.of_hierarchy_eq rfl
  | load snapshot =>
      apply getD_preserves hLinked
      intro after hLoad
      rcases ofJson_spec hLoad with ⟨_, _, _, -, -, rfl⟩
      intro h hHierarchy
      cases hHierarchy

/- Whatever is done, the hierarchy is made of class records. -/
theorem linked_run
    (settings : Settings)
    (steps : List Step) :
    (run settings steps).Linked := by
  apply run_preserves
  · intro h hHierarchy
    cases hHierarchy
  · intro db s _ hLinked
    exact hLinked.step s

------------------------------------------------------------
-- Types Below
------------------------------------------------------------

/-
  What takes a known class takes the known classes below it: a
  known type by way of the class, an unknown one by the settings
  alone.
-/
theorem takes_of_isCompatible
    (hHierarchy : db.hierarchy = some (.ofRecords records))
    {sub sup : String}
    (hSub : sub ∈ db.classes.keys)
    (hSup : sup ∈ db.classes.keys)
    (hCompatible :
      (Hierarchy.ofRecords records).isCompatible sub sup = true)
    {caught : String}
    (hTakes : db.takes sup caught = true) :
    db.takes sub caught = true := by
  rw [takes, (Table.contains_iff _ _).mpr hSup, Bool.true_and,
    hHierarchy] at hTakes
  rw [takes, (Table.contains_iff _ _).mpr hSub, Bool.true_and,
    hHierarchy]
  by_cases hCaught : db.classes.contains caught = true
  · rw [if_pos hCaught] at hTakes ⊢
    simp only [Hierarchy.isCompatible_iff_reflTransGen]
      at hCompatible hTakes ⊢
    exact hCompatible.trans hTakes
  · rw [if_neg hCaught] at hTakes ⊢
    exact hTakes

/-
  Where all that takes one class takes another, a caller that
  handles the one handles the other.
-/
theorem handles_of_takes
    {sub sup : String}
    (hTakes :
      ∀ caught, db.takes sup caught = true →
        db.takes sub caught = true)
    {callee caller : Signature}
    (hHandles : db.handles sup callee caller = true) :
    db.handles sub callee caller = true := by
  unfold handles at hHandles ⊢
  cases hEdge : db.edgeBetween callee caller with
  | none => simp [hEdge] at hHandles
  | some e =>
      simp only [hEdge, List.any_eq_true] at hHandles ⊢
      rcases hHandles with ⟨caught, hMem, hCaught⟩
      exact ⟨caught, hMem, hTakes caught hCaught⟩

end Database

------------------------------------------------------------
-- Entries
------------------------------------------------------------

/-
  Two entries are for the same method, and the first is handled
  if the second one is.
-/
def Entry.HandledIf
    (lower upper : Entry) : Prop :=
  lower.method = upper.method ∧
    (upper.handled = true → lower.handled = true)

/- The first handled entry comes no later. -/
theorem Chain.handledIndex_le
    {lower upper : Chain}
    (hEntries :
      List.Forall₂ Entry.HandledIf lower.entries
        upper.entries)
    {j : Nat}
    (hIndex : upper.handledIndex = some j) :
    ∃ i, lower.handledIndex = some i ∧ i ≤ j := by
  unfold handledIndex at hIndex ⊢
  generalize lower.entries = entries at hEntries ⊢
  generalize upper.entries = others at hEntries hIndex
  induction hEntries generalizing j with
  | nil => simp at hIndex
  | @cons a b rest others hHead _ ih =>
      rw [List.findIdx?_cons] at hIndex ⊢
      by_cases hLower : a.handled = true
      · exact ⟨0, by rw [if_pos hLower], Nat.zero_le j⟩
      · have hUpper : ¬b.handled = true :=
          fun hHandled => hLower (hHead.2 hHandled)
        rw [if_neg hUpper] at hIndex
        rcases Option.map_eq_some_iff.mp hIndex with
          ⟨k, hFound, rfl⟩
        rcases ih hFound with ⟨i, hFirst, hLess⟩
        refine ⟨i + 1, ?_, Nat.succ_le_succ hLess⟩
        rw [if_neg hLower, hFirst]
        rfl

theorem Chain.escapes_of_handledIf
    {lower upper : Chain}
    (hEntries :
      List.Forall₂ Entry.HandledIf lower.entries
        upper.entries)
    (hEscapes : lower.escapes = true) :
    upper.escapes = true := by
  unfold escapes at hEscapes ⊢
  cases hIndex : upper.handledIndex with
  | none => rfl
  | some j =>
      rcases handledIndex_le hEntries hIndex with
        ⟨i, hFirst, -⟩
      rw [hFirst] at hEscapes
      cases hEscapes

namespace Database

variable {settings : Settings} {steps : List Step}
variable {db : Database} {source : Signature}
variable {paths : List (List Signature)}

theorem forall₂_entriesAlong
    {sub sup : String}
    (hHandles :
      ∀ callee caller, db.handles sup callee caller = true →
        db.handles sub callee caller = true)
    (callee : Signature)
    (callers : List Signature) :
    List.Forall₂ Entry.HandledIf
      (db.entriesAlong sub callee callers)
      (db.entriesAlong sup callee callers) := by
  induction callers generalizing callee with
  | nil => exact .nil
  | cons caller rest ih =>
      exact .cons ⟨rfl, hHandles callee caller⟩ (ih caller)

------------------------------------------------------------
-- Chains
------------------------------------------------------------

/- A chain is the one of its exception along its methods. -/
theorem eq_chainAlong_of_mem
    (hPaths :
      ∀ path ∈ paths, IsPath db.callersIn source path)
    {c : Chain}
    (hChain : c ∈ db.chainsOfPaths source paths)
    {exc : String}
    (hExc : c.exception = some exc) :
    c = db.chainAlong exc source c.methods.tail := by
  rcases (mem_chainsOfPaths_iff _ _ _ _).mp hChain with
    ⟨path, hPath, other, -, rfl⟩
  cases hExc
  rw [methods_chainAlong_tail db exc (hPaths path hPath)]

/- Along the methods of a chain go all exceptions. -/
theorem exists_chain_of_exception
    (hPaths :
      ∀ path ∈ paths, IsPath db.callersIn source path)
    {c : Chain}
    (hChain : c ∈ db.chainsOfPaths source paths)
    {exc : String}
    (hThrown : exc ∈ db.exceptionsIn source) :
    ∃ d ∈ db.chainsOfPaths source paths,
      d.exception = some exc ∧ d.methods = c.methods := by
  rcases (mem_chainsOfPaths_iff _ _ _ _).mp hChain with
    ⟨path, hPath, other, -, rfl⟩
  refine ⟨db.chainAlong exc source path.tail, ?_, rfl, ?_⟩
  · exact (mem_chainsOfPaths_iff _ _ _ _).mpr
      ⟨path, hPath, exc, hThrown, rfl⟩
  · rw [methods_chainAlong_tail db exc (hPaths path hPath),
      methods_chainAlong_tail db other (hPaths path hPath)]

/-
  In every sealed database, each path of callers that one
  exception of a source has, all its exceptions have. Of two
  known exceptions, one the other or below it, take the chains
  along the same methods, from either enumerator: every entry
  that is handled for the upper one is handled for the lower
  one. So the lower one is handled no later, and if it escapes,
  then so does the upper one.
-/
theorem handled_below
    (hRun : run settings steps = db)
    (hSealed : db.isSealed = true)
    {h : Hierarchy}
    (hHierarchy : db.hierarchy = some h)
    {sub sup : String}
    (hSub : sub ∈ db.classes.keys)
    (hSup : sup ∈ db.classes.keys)
    (hCompatible : h.isCompatible sub sup = true)
    (source : Signature) :
    ∃ exceptions tree all,
      db.exceptionsOf source = .ok exceptions ∧
      db.chainsFrom source = .ok tree ∧
      db.allChainsFrom source = .ok all ∧
      (∀ chains ∈ [tree, all], ∀ c ∈ chains,
        ∀ exc ∈ exceptions, ∃ d ∈ chains,
          d.exception = some exc ∧ d.methods = c.methods) ∧
      ∀ lower ∈ tree ++ all, ∀ upper ∈ tree ++ all,
        lower.exception = some sub →
        upper.exception = some sup →
        lower.methods = upper.methods →
          List.Forall₂ Entry.HandledIf lower.entries
            upper.entries ∧
          (∀ j, upper.handledIndex = some j →
            ∃ i, lower.handledIndex = some i ∧ i ≤ j) ∧
          (lower.escapes = true → upper.escapes = true) := by
  have hTree :
      ∀ path ∈ treePaths db.callersIn db.callers.keys source,
        IsPath db.callersIn source path :=
    fun path => isPath_of_mem_treePaths db.callers.nodup
  have hMaximal :
      ∀ path ∈ maximalPaths db.callersIn db.callers.keys source,
        IsPath db.callersIn source path :=
    fun path => isPath_of_mem_maximalPaths db.callers.nodup
  refine ⟨_, _, _, exceptionsOf_eq hSealed source,
    chainsFrom_eq hSealed source,
    allChainsFrom_eq hSealed source, ?_, ?_⟩
  · intro chains hChains c hChain exc hThrown
    rcases List.mem_pair.mp hChains with rfl | rfl
    · exact exists_chain_of_exception hTree hChain hThrown
    · exact exists_chain_of_exception hMaximal hChain hThrown
  · intro lower hLower upper hUpper hLowerExc hUpperExc hMethods
    have hAlong :
        ∀ c ∈ db.chainsOfPaths source
              (treePaths db.callersIn db.callers.keys source)
            ++ db.chainsOfPaths source
              (maximalPaths db.callersIn db.callers.keys source),
          ∀ exc, c.exception = some exc →
            c = db.chainAlong exc source c.methods.tail := by
      intro c hChain exc hExc
      rcases List.mem_append.mp hChain with hChain | hChain
      · exact eq_chainAlong_of_mem hTree hChain hExc
      · exact eq_chainAlong_of_mem hMaximal hChain hExc
    have hLinked : db.Linked := by
      rw [← hRun]
      exact linked_run settings steps
    rcases hLinked h hHierarchy with ⟨records, rfl⟩
    have hHandles :
        ∀ callee caller, db.handles sup callee caller = true →
          db.handles sub callee caller = true := by
      intro callee caller
      apply handles_of_takes
      intro caught
      exact takes_of_isCompatible hHierarchy hSub hSup
        hCompatible
    have hEntries :
        List.Forall₂ Entry.HandledIf lower.entries
          upper.entries := by
      rw [hAlong lower hLower sub hLowerExc,
        hAlong upper hUpper sup hUpperExc, hMethods]
      exact forall₂_entriesAlong hHandles source _
    refine ⟨hEntries, ?_, Chain.escapes_of_handledIf hEntries⟩
    intro j hIndex
    exact Chain.handledIndex_le hEntries hIndex

/-
  A source throws a class and one below it. Its caller catches
  the lower class, and the caller of that one the upper class.
-/
def caughtInTurn : List Addition := [
  .binding "Failure" (.record { name := "Failure" }),
  .binding "Timeout" (.record {
    name := "Timeout"
    superClass := some "Failure" }),
  .facts {
    signature := sampleMethod "a"
    thrown := ["Failure", "Timeout"] },
  .facts {
    signature := sampleMethod "b"
    calls := [sampleMethod "a"]
    handlers := .ofList [(sampleMethod "a", ["Timeout"])] },
  .facts {
    signature := sampleMethod "c"
    calls := [sampleMethod "b"]
    handlers := .ofList [(sampleMethod "b", ["Failure"])] }]

/- The chain of an exception of the sample. -/
def caughtChain
    (exc : String)
    (first : Bool) : Chain :=
  ⟨sampleMethod "a",
    [⟨sampleMethod "b", first⟩, ⟨sampleMethod "c", true⟩],
    some exc⟩

theorem exists_built_caughtInTurn :
    ∃ db h, BuiltFrom {} caughtInTurn db ∧
      db.hierarchy = some h ∧
      "Timeout" ∈ db.classes.keys ∧
      "Failure" ∈ db.classes.keys ∧
      h.isCompatible "Timeout" "Failure" = true ∧
      db.chainsFrom (sampleMethod "a") =
        .ok [caughtChain "Failure" false,
          caughtChain "Timeout" true] := by
  refine ⟨_, _, ⟨_, rfl, rfl, rfl⟩, rfl, by decide, by decide,
    ?_, ?_⟩
  · cbv
  · cbv

/- The lower class is handled first, by the nearer caller. -/
theorem handled_below_caughtInTurn :
    ∃ db h tree,
      BuiltFrom {} caughtInTurn db ∧ db.isSealed = true ∧
      db.hierarchy = some h ∧
      "Timeout" ∈ db.classes.keys ∧
      "Failure" ∈ db.classes.keys ∧
      h.isCompatible "Timeout" "Failure" = true ∧
      db.chainsFrom (sampleMethod "a") = .ok tree ∧
      ∃ lower ∈ tree, ∃ upper ∈ tree,
        lower.exception = some "Timeout" ∧
        upper.exception = some "Failure" ∧
        lower.methods = upper.methods ∧
        upper.handledIndex = some 1 ∧
        ∃ i, lower.handledIndex = some i ∧ i ≤ 1 := by
  rcases exists_built_caughtInTurn with
    ⟨db, h, hBuilt, hHierarchy, hSub, hSup, hCompatible, hTree⟩
  rcases hBuilt.graphOf with ⟨records, hGraph⟩
  rcases handled_below hBuilt.run_eq hGraph.isSealed hHierarchy
      hSub hSup hCompatible (sampleMethod "a") with
    ⟨exceptions, tree, all, -, hChains, -, -, hHandled⟩
  rw [hTree] at hChains
  cases hChains
  have hLower :
      caughtChain "Timeout" true ∈
        [caughtChain "Failure" false,
          caughtChain "Timeout" true] := by
    simp
  have hUpper :
      caughtChain "Failure" false ∈
        [caughtChain "Failure" false,
          caughtChain "Timeout" true] := by
    simp
  refine ⟨db, h, _, hBuilt, hGraph.isSealed, hHierarchy, hSub,
    hSup, hCompatible, hTree, _, hLower, _, hUpper, rfl, rfl,
    rfl, rfl, ?_⟩
  exact (hHandled _ (List.mem_append_left _ hLower) _
    (List.mem_append_left _ hUpper) rfl rfl rfl).2.1 1 rfl

end Database

end Uncaught
