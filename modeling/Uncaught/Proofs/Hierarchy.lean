import Uncaught.Hierarchy
import Uncaught.Proofs.Data.Sorted
import Uncaught.Proofs.Data.Table
import Uncaught.Proofs.Graph.Gather

/-
  The subtype relation of a list of class records is the
  transitive closure of what the records say, with no class
  taken to stand directly under itself.

  Main declarations:
    * `ClassRecord.StandsUnder`
    * `Hierarchy.Link`
    * `Hierarchy.mem_ancestors_iff`
    * `Hierarchy.mem_subtypes_iff`
    * `Hierarchy.isCompatible_iff`
    * `Hierarchy.mem_overriding_iff`
-/

namespace Uncaught

open Relation

------------------------------------------------------------
-- Records
------------------------------------------------------------

/-
  A record puts its class directly under another one: the class
  extends it or has it among its interfaces.
-/
def ClassRecord.StandsUnder
    (c : ClassRecord)
    (sup : String) : Prop :=
  (c.superClass = some sup ∧ sup ≠ "") ∨ sup ∈ c.interfaces

theorem ClassRecord.mem_supertypes_iff
    (c : ClassRecord)
    (sup : String) :
    sup ∈ c.supertypes ↔ c.StandsUnder sup := by
  simp [supertypes, StandsUnder, Option.filter_eq_some_iff]

/- Whether one method can stand for another at run time. -/
theorem Signature.sameDispatch_iff
    (a b : Signature) :
    a.sameDispatch b = true ↔
      a.name = b.name ∧ a.params = b.params := by
  simp [sameDispatch]

namespace Hierarchy

------------------------------------------------------------
-- Links
------------------------------------------------------------

/-
  One of the records puts a class directly under another class
  than itself.
-/
def Link
    (records : List ClassRecord)
    (sub sup : String) : Prop :=
  ∃ c ∈ records,
    c.name = sub ∧ c.StandsUnder sup ∧ sup ≠ sub

variable (records : List ClassRecord)

theorem mem_links_iff
    (sub sup : String) :
    (sub, sup) ∈ (ofRecords records).links ↔
      Link records sub sup := by
  simp only [ofRecords, List.mem_flatMap, linksOf,
    List.mem_map, List.mem_filter,
    ClassRecord.mem_supertypes_iff, bne_iff_ne, Link]
  constructor
  · rintro ⟨c, hRecord, s, ⟨hUnder, hOther⟩, hPair⟩
    cases hPair
    exact ⟨c, hRecord, rfl, hUnder, hOther⟩
  · rintro ⟨c, hRecord, rfl, hUnder, hOther⟩
    exact ⟨c, hRecord, sup, ⟨hUnder, hOther⟩, rfl⟩

theorem mem_supers_iff
    (sub sup : String) :
    sup ∈ (ofRecords records).supers sub ↔
      Link records sub sup := by
  rw [← mem_links_iff]
  simp [supers, List.mem_filterMap]

theorem mem_subs_iff
    (sub sup : String) :
    sub ∈ (ofRecords records).subs sup ↔
      Link records sub sup := by
  rw [← mem_links_iff]
  simp [subs, List.mem_filterMap]

/- Both ends of a link are among the names of a hierarchy. -/
theorem Link.mem_names
    {records : List ClassRecord}
    {sub sup : String}
    (hLink : Link records sub sup) :
    sub ∈ (ofRecords records).names ∧
      sup ∈ (ofRecords records).names := by
  have hMem := (mem_links_iff records sub sup).mpr hLink
  have hNames :
      (ofRecords records).names =
        ((ofRecords records).links.map Prod.fst
          ++ (ofRecords records).links.map Prod.snd
          ++ (ofRecords records).records.keys).eraseDups := rfl
  rw [hNames]
  constructor
  · simp only [List.mem_eraseDups, List.mem_append]
    exact .inl (.inl (List.mem_map.mpr ⟨_, hMem, rfl⟩))
  · simp only [List.mem_eraseDups, List.mem_append]
    exact .inl (.inr (List.mem_map.mpr ⟨_, hMem, rfl⟩))

------------------------------------------------------------
-- Relations
------------------------------------------------------------

theorem next_supers :
    Graph.Next (ofRecords records).supers = Link records := by
  funext sub sup
  exact propext (mem_supers_iff records sub sup)

theorem next_subs :
    Graph.Next (ofRecords records).subs =
      Function.swap (Link records) := by
  funext sup sub
  exact propext (mem_subs_iff records sub sup)

/- The classes above a class are those that links lead up to. -/
theorem mem_ancestors_iff
    (sub sup : String) :
    sup ∈ (ofRecords records).ancestors sub ↔
      TransGen (Link records) sub sup := by
  rw [ancestors, Graph.mem_gather_next_iff, next_supers]
  intro a b hSuper
  exact ((mem_supers_iff records a b).mp hSuper).mem_names.2

/- The classes below a class are those it is above of. -/
theorem mem_subtypes_iff
    (sub sup : String) :
    sub ∈ (ofRecords records).subtypes sup ↔
      TransGen (Link records) sub sup := by
  rw [subtypes, Graph.mem_gather_next_iff, next_subs,
    transGen_swap]
  intro a b hSub
  exact ((mem_subs_iff records b a).mp hSub).mem_names.1

/- One class stands for another if it is the same or below. -/
theorem isCompatible_iff
    (sub sup : String) :
    (ofRecords records).isCompatible sub sup = true ↔
      sub = sup ∨ TransGen (Link records) sub sup := by
  rw [isCompatible, Bool.or_eq_true, beq_iff_eq,
    List.contains_iff_mem, mem_ancestors_iff]

/-
  The methods that can run in place of a method are the ones
  that a class below declares with its name and its parameter
  types.
-/
theorem mem_overriding_iff
    (owner : String)
    (method u : Signature) :
    u ∈ (ofRecords records).overriding owner method ↔
      ∃ sub c, TransGen (Link records) sub owner ∧
        (ofRecords records).records.get? sub = some c ∧
          u ∈ c.methods ∧ u.name = method.name ∧
            u.params = method.params := by
  simp only [overriding, List.mem_eraseDups, List.mem_flatMap,
    mem_subtypes_iff]
  constructor
  · rintro ⟨sub, hBelow, hMem⟩
    cases hRecord : (ofRecords records).records.get? sub with
    | none => simp [hRecord] at hMem
    | some c =>
        simp only [hRecord, List.mem_filter,
          Signature.sameDispatch_iff] at hMem
        exact ⟨sub, c, hBelow, hRecord, hMem⟩
  · rintro ⟨sub, c, hBelow, hRecord, hMem⟩
    refine ⟨sub, hBelow, ?_⟩
    simpa only [hRecord, List.mem_filter,
      Signature.sameDispatch_iff] using hMem

end Hierarchy

end Uncaught
