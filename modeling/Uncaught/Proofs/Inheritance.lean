import Uncaught.Proofs.Graph.PathExtensions
import Uncaught.Proofs.Graph.Worklist
import Uncaught.Proofs.Hierarchy

/-
  The subtype relation of class records that may be repeated,
  incomplete or cyclic. All classes above and below each class
  can be found beforehand, the two directions agree, and the
  classes that stand above themselves are those on cycles, of
  which one warning tells.

  Key definitions include:
    * `Hierarchy.Closures`
    * `Hierarchy.closures`
    * `Hierarchy.OnCycle`

  Main declarations:
    * `Hierarchy.exists_closures`
    * `Hierarchy.transGen_self_iff`
    * `Hierarchy.cycles_of_events`
    * `Hierarchy.subtyping_exact`
-/

namespace Uncaught

open Relation

/- The classes that a warning finds on cycles. -/
def Event.cycle? : Event → Option (List String)
  | inheritanceCycle names => some names
  | _ => none

namespace Hierarchy

------------------------------------------------------------
-- Closures
------------------------------------------------------------

/- For each name the names after it, all found beforehand. -/
def closureTable
    (next : String → List String)
    (names : List String)
    (bound : Nat) :
    Option (Table String (List String)) := do
  let entries ← names.mapM fun name => do
    return (name, ← Graph.closure next bound name)
  return .ofList entries

/- The classes above and below each class of a hierarchy. -/
structure Closures where
  above : Table String (List String)
  below : Table String (List String)

/-
  Find all classes above and below each class. No search may
  take more steps than the bound.
-/
def closures
    (h : Hierarchy)
    (bound : Nat) : Option Closures := do
  let above ← closureTable h.supers h.names bound
  let below ← closureTable h.subs h.names bound
  return ⟨above, below⟩

/-
  The table is found, and tells of each name what the search
  from it finds. A name outside has no entry, and nothing after
  it.
-/
theorem exists_closureTable
    {next : String → List String}
    {names : List String}
    (hNodup : names.Nodup)
    (hClosed : ∀ a, ∀ b ∈ next a, b ∈ names)
    (hOutside : ∀ a, a ∉ names → next a = []) :
    ∃ t, Settles (closureTable next names) (some t) ∧
      ∀ a b, b ∈ (t.get? a).getD [] ↔
        b ∈ Graph.gather next names (next a) := by
  choose found hFound hMem using
    Graph.exists_closure hNodup hClosed
  refine ⟨.ofList (names.map fun name => (name, found name)),
    ?_, ?_⟩
  · refine .bind (.mapM fun name _ => ?_) (.const _)
    exact (hFound name).bind (.const _)
  · intro a b
    rw [Table.ofList, List.foldl_map,
      Table.get?_foldl_insert_keys found]
    by_cases hName : a ∈ names
    · rw [if_pos hName, Option.getD_some, hMem]
    · rw [if_neg hName, hOutside a hName]
      simp [Graph.gather]

variable (records : List ClassRecord)

theorem nodup_names :
    (ofRecords records).names.Nodup :=
  nodup_eraseDups _

theorem supers_mem_names
    (a : String) :
    ∀ b ∈ (ofRecords records).supers a,
      b ∈ (ofRecords records).names :=
  fun b hSuper =>
    ((mem_supers_iff records a b).mp hSuper).mem_names.2

theorem subs_mem_names
    (a : String) :
    ∀ b ∈ (ofRecords records).subs a,
      b ∈ (ofRecords records).names :=
  fun b hSub =>
    ((mem_subs_iff records b a).mp hSub).mem_names.1

/- What is found beforehand is the answer to each question. -/
theorem exists_closures :
    ∃ c, Settles (ofRecords records).closures (some c) ∧
      ∀ a b,
        (b ∈ (c.above.get? a).getD [] ↔
          b ∈ (ofRecords records).ancestors a) ∧
        (b ∈ (c.below.get? a).getD [] ↔
          b ∈ (ofRecords records).subtypes a) := by
  have hNoSupers :
      ∀ a, a ∉ (ofRecords records).names →
        (ofRecords records).supers a = [] := by
    intro a hOutside
    rw [List.eq_nil_iff_forall_not_mem]
    intro b hSuper
    exact hOutside
      ((mem_supers_iff records a b).mp hSuper).mem_names.1
  have hNoSubs :
      ∀ a, a ∉ (ofRecords records).names →
        (ofRecords records).subs a = [] := by
    intro a hOutside
    rw [List.eq_nil_iff_forall_not_mem]
    intro b hSub
    exact hOutside
      ((mem_subs_iff records b a).mp hSub).mem_names.2
  rcases exists_closureTable (nodup_names records)
      (supers_mem_names records) hNoSupers with
    ⟨above, hAbove, hAncestors⟩
  rcases exists_closureTable (nodup_names records)
      (subs_mem_names records) hNoSubs with
    ⟨below, hBelow, hSubtypes⟩
  refine ⟨⟨above, below⟩, ?_, ?_⟩
  · exact hAbove.bind (hBelow.bind (.const _))
  · intro a b
    exact ⟨hAncestors a b, hSubtypes a b⟩

------------------------------------------------------------
-- Cycles
------------------------------------------------------------

/-
  A class lies on a cycle: links lead from it through distinct
  classes back to it.
-/
def OnCycle
    (records : List ClassRecord)
    (name : String) : Prop :=
  ∃ between, (name :: between).Nodup ∧
    (name :: (between ++ [name])).IsChain (Link records)

/- A class stands above itself just if it lies on a cycle. -/
theorem transGen_self_iff
    (name : String) :
    TransGen (Link records) name name ↔
      OnCycle records name := by
  rw [← next_supers, TransGen.head'_iff]
  constructor
  · -- a way back is cut to one that meets no class twice
    rintro ⟨first, hFirst, hBack⟩
    rcases (Graph.exists_mem_treePaths_iff
        (nodup_names records) (supers_mem_names records)
        name).mpr hBack with
      ⟨path, hTree, hMem⟩
    have hPath :=
      Graph.isPath_of_mem_treePaths (nodup_names records) hTree
    rcases hPath.exists_prefix_to hMem with
      ⟨front, -, hFront, hLast⟩
    rcases List.getLast?_eq_some_iff.mp hLast with
      ⟨between, rfl⟩
    rcases hFront.eq_cons with ⟨rest, hCons⟩
    refine ⟨between, ?_, ?_⟩
    · exact (List.perm_append_singleton name
        between).nodup_iff.mp hFront.nodup
    · rw [← next_supers, hCons]
      exact List.isChain_cons_cons.mpr
        ⟨hFirst, hCons ▸ hFront.steps⟩
  · rintro ⟨between, -, hChain⟩
    rw [← next_supers] at hChain
    rcases hCons : between ++ [name] with - | ⟨first, rest⟩
    · simp at hCons
    · rw [hCons] at hChain
      rcases List.isChain_cons_cons.mp hChain with
        ⟨hFirst, hRest⟩
      have hEnd : name ∈ first :: rest := by
        rw [← hCons]
        simp
      exact ⟨first, hFirst,
        Graph.reflTransGen_of_mem_chain hRest hEnd⟩

theorem mem_cyclic_iff
    (name : String) :
    name ∈ (ofRecords records).cyclic ↔
      OnCycle records name := by
  rw [cyclic, mem_sortNames, List.mem_filter,
    List.contains_iff_mem, mem_ancestors_iff,
    transGen_self_iff]
  constructor
  · exact And.right
  · intro hCycle
    have hAbove := (transGen_self_iff records name).mpr hCycle
    rcases TransGen.head'_iff.mp hAbove with ⟨_, hLink, -⟩
    exact ⟨hLink.mem_names.1, hCycle⟩

/- At most one warning tells of cycles, with all of them. -/
theorem cycles_of_events :
    (events records).filterMap Event.cycle? =
      if (ofRecords records).cyclic = [] then []
      else [(ofRecords records).cyclic] := by
  have hSelf :
      (records.flatMap fun c =>
        (c.supertypes.filter (· == c.name)).map
          Event.selfInheritance).filterMap Event.cycle? =
        [] := by
    rw [List.filterMap_eq_nil_iff]
    intro e hEvent
    rcases List.mem_flatMap.mp hEvent with ⟨c, -, hOne⟩
    rcases List.mem_map.mp hOne with ⟨name, -, rfl⟩
    rfl
  unfold events
  cases hCyclic : (ofRecords records).cyclic with
  | nil => simp [hSelf]
  | cons name rest =>
      simp [hSelf, Event.cycle?]

------------------------------------------------------------
-- Subtyping
------------------------------------------------------------

theorem isCompatible_iff_reflTransGen
    (sub sup : String) :
    (ofRecords records).isCompatible sub sup = true ↔
      ReflTransGen (Link records) sub sup := by
  rw [isCompatible_iff, reflTransGen_iff_eq_or_transGen,
    eq_comm]

/-
  Whatever the records are, the classes above and below each
  class are all found. They are the ones that the links of all
  records lead up to, or down to, in one step or more. A class
  is above itself just if it lies on a cycle, and the one
  warning on cycles has just these classes, in order. A class
  stands for another if no or more links lead up to it.
-/
theorem subtyping_exact :
    (∃ c, Settles (ofRecords records).closures (some c) ∧
      ∀ a b,
        (b ∈ (c.above.get? a).getD [] ↔
          b ∈ (ofRecords records).ancestors a) ∧
        (b ∈ (c.below.get? a).getD [] ↔
          b ∈ (ofRecords records).subtypes a)) ∧
    (∀ a b, b ∈ (ofRecords records).ancestors a ↔
      TransGen (Link records) a b) ∧
    (∀ a b, b ∈ (ofRecords records).subtypes a ↔
      TransGen (Function.swap (Link records)) a b) ∧
    (∀ a b, b ∈ (ofRecords records).ancestors a ↔
      a ∈ (ofRecords records).subtypes b) ∧
    (∀ a, a ∈ (ofRecords records).ancestors a ↔
      OnCycle records a) ∧
    (∃ names : List String,
      names.Pairwise (· < ·) ∧
      (∀ a, a ∈ names ↔ OnCycle records a) ∧
      (events records).filterMap Event.cycle? =
        if names = [] then [] else [names]) ∧
    (∀ a b, (ofRecords records).isCompatible a b = true ↔
      ReflTransGen (Link records) a b) ∧
    (∀ a, (ofRecords records).isCompatible a a = true) ∧
    (∀ a b c,
      (ofRecords records).isCompatible a b = true →
        (ofRecords records).isCompatible b c = true →
          (ofRecords records).isCompatible a c = true) := by
  have hCompatible := isCompatible_iff_reflTransGen records
  refine ⟨exists_closures records, mem_ancestors_iff records,
    ?_, ?_, ?_, ?_, hCompatible, ?_, ?_⟩
  · intro a b
    rw [mem_subtypes_iff, transGen_swap]
  · intro a b
    rw [mem_ancestors_iff, mem_subtypes_iff]
  · intro a
    rw [mem_ancestors_iff, transGen_self_iff]
  · refine ⟨(ofRecords records).cyclic, ?_,
      mem_cyclic_iff records, cycles_of_events records⟩
    exact pairwise_lt_sortNames
      ((nodup_names records).filter _)
  · intro a
    exact (hCompatible a a).mpr .refl
  · intro a b c hFirst hSecond
    rw [hCompatible] at hFirst hSecond ⊢
    exact hFirst.trans hSecond

end Hierarchy

end Uncaught
