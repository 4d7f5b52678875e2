import Uncaught.Proofs.Graph.Gather
import Uncaught.Proofs.Resolve.Names
import Uncaught.Resolve.Links

/-
  What the links between the types of a project are: the
  superclass and the interfaces of a type are those that its
  head names, and the fields of a type are those that are
  declared for it. The closure of a type is all that is reached
  by these links.

  Key definitions include:
    * `Links.parentOf`
    * `Links.interfacesOf`
    * `Links.fieldEntry`

  Main declarations:
    * `Links.get?_parents_of_ofFiles`
    * `Links.getD_interfaces_of_ofFiles`
    * `Links.getD_fields_of_ofFiles`
    * `Links.of_mem_supertypes`
    * `Links.mem_closure_iff`
-/

namespace Uncaught

namespace Links

open Relation

variable {n : Names} {files : List FileSummary}
variable {links after : Links}

------------------------------------------------------------
-- Heads
------------------------------------------------------------

/- The class that the head of a declared type extends. -/
def parentOf
    (n : Names)
    (name : String) : Option String :=
  (n.types.get? name).bind fun t =>
    (headNames n name (t.summary.extended.getD [])).getLast?

/- The interfaces that the head of a declared type names. -/
def interfacesOf
    (n : Names)
    (name : String) : List String :=
  ((n.types.get? name).map fun t =>
    headNames n name (t.summary.implemented.getD [])).getD []

/- A resolved head has neither empty names nor its own. -/
theorem of_mem_headNames
    {name found : String}
    {written : List String}
    (hMem : found ∈ headNames n name written) :
    found ≠ "" ∧ found ≠ name := by
  simp only [headNames, List.mem_filter, List.mem_filterMap,
    bne_iff_ne] at hMem
  rcases hMem with ⟨⟨w, -, hFound⟩, hOther⟩
  exact ⟨Names.ne_empty_of_resolve? hFound, hOther⟩

/- What the head of a type adds. -/
theorem addType_spec
    {name : String}
    {t : TypeSummary}
    (hAdd : addType n links name t = .ok after) :
    ∃ parents interfaces,
      after = { links with parents, interfaces } ∧
      (∀ k, parents.get? k =
        if k = name then
          (headNames n name (t.extended.getD [])).getLast?.or
            (links.parents.get? k)
        else links.parents.get? k) ∧
      (∀ k, (interfaces.get? k).getD [] =
        let found := headNames n name (t.implemented.getD [])
        if k = name ∧ found ≠ [] then found
        else (links.interfaces.get? k).getD []) := by
  simp only [addType, bind_eq_ok_iff, need_eq_ok_iff] at hAdd
  rcases hAdd with
    ⟨extended, hExtended, implemented, hImplemented, hAfter⟩
  cases hAfter
  refine ⟨_, _, rfl, ?_, ?_⟩
  · intro k
    rw [hExtended, Table.get?_foldl_insert_same, Option.getD_some]
    by_cases hKey : k = name <;> simp [hKey]
  · intro k
    rw [hImplemented, Option.getD_some]
    by_cases hNone : headNames n name implemented = []
    · simp [hNone]
    · rw [if_neg (by simpa using hNone), Table.get?_insert]
      by_cases hKey : k = name <;> simp [hKey, hNone]

------------------------------------------------------------
-- Fields
------------------------------------------------------------

/- The field that a declaration adds to a type. -/
def fieldEntry
    (n : Names)
    (owner : String)
    (f : FieldSummary) : Option (String × String) := do
  if f.owner = some owner then
    let type ← f.type
    let found ← n.resolve? (Text.deleteAll type "[]") (some owner)
    let name ← f.name
    return (name, found)
  else
    none

theorem owner_of_fieldEntry
    {owner : String}
    {f : FieldSummary}
    {e : String × String}
    (hEntry : fieldEntry n owner f = some e) :
    f.owner = some owner := by
  unfold fieldEntry at hEntry
  split at hEntry
  · assumption
  · cases hEntry

/- A field adds to the fields of its type only. -/
theorem addField_spec
    {f : FieldSummary}
    (hAdd : addField n links f = .ok after) :
    ∃ fields, after = { links with fields } ∧
      ∀ owner,
        (fields.get? owner).getD .empty =
          ((fieldEntry n owner f).map fun e =>
            ((links.fields.get? owner).getD .empty).insert e.1
              e.2).getD ((links.fields.get? owner).getD .empty) := by
  simp only [addField, bind_eq_ok_iff, need_eq_ok_iff] at hAdd
  rcases hAdd with ⟨type, hType, owner', hOwner, hAdd⟩
  cases hFound :
      n.resolve? (Text.deleteAll type "[]") (some owner') with
  | none =>
      rw [hFound] at hAdd
      cases hAdd
      refine ⟨_, rfl, ?_⟩
      intro owner
      by_cases hSame : owner' = owner
      · subst hSame
        simp [fieldEntry, hOwner, hType, hFound]
      · simp [fieldEntry, hOwner, hSame]
  | some found =>
      rw [hFound] at hAdd
      simp only [bind_eq_ok_iff, need_eq_ok_iff] at hAdd
      rcases hAdd with ⟨name, hName, hAfter⟩
      cases hAfter
      refine ⟨_, rfl, ?_⟩
      intro owner
      rw [Table.get?_insert]
      by_cases hSame : owner' = owner
      · subst hSame
        simp [fieldEntry, hOwner, hType, hFound, hName]
      · have hOther : ¬owner = owner' := fun h => hSame h.symm
        simp [fieldEntry, hOwner, hSame, hOther]

------------------------------------------------------------
-- Files
------------------------------------------------------------

/- The heads of all types come before all fields. -/
theorem ofFiles_spec
    (hLinks : ofFiles n files = .ok links) :
    ∃ heads,
      n.types.entries.foldlM
        (fun links e => addType n links e.1 e.2.summary) {} =
          .ok heads ∧
      (files.flatMap (·.fields)).foldlM (addField n) heads =
        .ok links ∧
      links = { heads with fields := links.fields } := by
  rcases bind_eq_ok_iff.mp hLinks with ⟨heads, hHeads, hFields⟩
  refine ⟨heads, hHeads, hFields, ?_⟩
  apply foldlM_preserves
    (P := fun links =>
      links = { heads with fields := links.fields }) rfl _ hFields
  intro before f _ after hBefore hAdd
  rcases addField_spec hAdd with ⟨fields, rfl, -⟩
  rw [hBefore]

/- What is known of a type comes from its own head. -/
theorem view_of_heads
    {γ : Type}
    (V : Links → γ)
    (change : DeclaredType → γ → γ)
    (name : String)
    {heads : Links}
    (hStep :
      ∀ (before : Links) (e : String × DeclaredType) after,
        addType n before e.1 e.2.summary = .ok after →
          V after =
            if name = e.1 then change e.2 (V before)
            else V before)
    (hHeads :
      n.types.entries.foldlM
        (fun links e => addType n links e.1 e.2.summary) {} =
          .ok heads) :
    V heads =
      ((n.types.get? name).map (change · (V {}))).getD (V {}) := by
  have hRun := foldlM_eq_foldl (V := V)
    (g := fun found e =>
      if name = e.1 then change e.2 found else found)
    (fun b e _ b' => hStep b e b') hHeads
  rw [hRun, Table.foldl_at_key n.types.nodup name change]
  rfl

/- The superclass of a type is the one that its head names. -/
theorem get?_parents_of_ofFiles
    (hLinks : ofFiles n files = .ok links)
    (name : String) :
    links.parents.get? name = parentOf n name := by
  rcases ofFiles_spec hLinks with ⟨heads, hHeads, -, hSame⟩
  rw [hSame, parentOf]
  refine (view_of_heads (fun links => links.parents.get? name)
    (fun t found =>
      (headNames n name
        (t.summary.extended.getD [])).getLast?.or found)
    name ?_ hHeads).trans ?_
  · intro before e after hAdd
    rcases addType_spec hAdd with
      ⟨parents, interfaces, rfl, hParents, -⟩
    rw [hParents name]
    by_cases hName : name = e.1 <;> simp [hName]
  · cases n.types.get? name <;> simp

/- The interfaces of a type are those that its head names. -/
theorem getD_interfaces_of_ofFiles
    (hLinks : ofFiles n files = .ok links)
    (name : String) :
    (links.interfaces.get? name).getD [] =
      interfacesOf n name := by
  rcases ofFiles_spec hLinks with ⟨heads, hHeads, -, hSame⟩
  rw [hSame, interfacesOf]
  refine (view_of_heads
    (fun links => (links.interfaces.get? name).getD [])
    (fun t found =>
      let named :=
        headNames n name (t.summary.implemented.getD [])
      if named = [] then found else named)
    name ?_ hHeads).trans ?_
  · intro before e after hAdd
    rcases addType_spec hAdd with
      ⟨parents, interfaces, rfl, -, hInterfaces⟩
    rw [hInterfaces name]
    by_cases hName : name = e.1
    · subst hName
      simp only [true_and, if_true, ne_eq, ite_not]
    · simp [hName]
  · cases n.types.get? name with
    | none => rfl
    | some t =>
        by_cases hNone :
            headNames n name
              (t.summary.implemented.getD []) = [] <;>
          simp [hNone]

theorem supertypes_eq_of_ofFiles
    (hLinks : ofFiles n files = .ok links)
    (name : String) :
    links.supertypes name =
      (parentOf n name).toList ++ interfacesOf n name := by
  rw [supertypes, get?_parents_of_ofFiles hLinks,
    getD_interfaces_of_ofFiles hLinks]

/- Only a declared type has supertypes, and never itself. -/
theorem of_mem_supertypes
    (hLinks : ofFiles n files = .ok links)
    {name sup : String}
    (hMem : sup ∈ links.supertypes name) :
    n.declares name = true ∧ sup ≠ "" ∧ sup ≠ name := by
  rw [supertypes_eq_of_ofFiles hLinks, List.mem_append,
    Option.mem_toList] at hMem
  rw [Names.declares_iff]
  unfold parentOf interfacesOf at hMem
  cases hType : n.types.get? name with
  | none => simp [hType] at hMem
  | some t =>
      refine ⟨⟨t, rfl⟩, ?_⟩
      rw [hType] at hMem
      rcases hMem with hParent | hInterface
      · exact of_mem_headNames
          (List.mem_of_getLast? hParent)
      · exact of_mem_headNames hInterface

/- The fields of a type are those that are declared for it. -/
theorem getD_fields_of_ofFiles
    (hLinks : ofFiles n files = .ok links)
    (owner : String) :
    (links.fields.get? owner).getD .empty =
      .ofList ((files.flatMap (·.fields)).filterMap
        (fieldEntry n owner)) := by
  rcases ofFiles_spec hLinks with ⟨heads, hHeads, hFields, -⟩
  have hNone : heads.fields = .empty := by
    apply foldlM_preserves
      (P := fun links : Links => links.fields = .empty) rfl _
      hHeads
    intro before e _ after hBefore hAdd
    rcases addType_spec hAdd with ⟨parents, interfaces, rfl, -⟩
    exact hBefore
  have hRun := foldlM_eq_foldl
    (V := fun links : Links =>
      (links.fields.get? owner).getD .empty)
    (g := fun found f =>
      (fieldEntry n owner f).elim found
        fun e => found.insert e.1 e.2)
    (fun before f _ after hAdd => by
      rcases addField_spec hAdd with ⟨fields, rfl, hEntry⟩
      rw [hEntry owner]
      cases fieldEntry n owner f <;> rfl) hFields
  rw [Table.ofList, List.foldl_filterMap]
  refine hRun.trans ?_
  rw [hNone]
  congr 1
  funext found f
  cases fieldEntry n owner f <;> rfl

------------------------------------------------------------
-- Closure
------------------------------------------------------------

/- The nodes of the search are all supertypes, and the start. -/
theorem mem_known_iff
    (links : Links)
    (name sup : String) :
    sup ∈ (name :: links.parents.values
      ++ links.interfaces.values.flatten).eraseDups ↔
        sup = name ∨ ∃ sub, sup ∈ links.supertypes sub := by
  have hInterfaces :
      (∃ found, (∃ sub, links.interfaces.get? sub = some found) ∧
        sup ∈ found) ↔
        ∃ sub, sup ∈ (links.interfaces.get? sub).getD [] := by
    constructor
    · rintro ⟨found, ⟨sub, hFound⟩, hMem⟩
      refine ⟨sub, ?_⟩
      rwa [hFound]
    · rintro ⟨sub, hMem⟩
      cases hFound : links.interfaces.get? sub with
      | none => simp [hFound] at hMem
      | some found =>
          rw [hFound] at hMem
          exact ⟨found, ⟨sub, hFound⟩, hMem⟩
  simp only [supertypes, List.mem_eraseDups, List.mem_append,
    List.mem_cons, Table.mem_values_iff, List.mem_flatten,
    hInterfaces, Option.mem_toList, exists_or, or_assoc]

/- The closure of a type is what links lead to from it. -/
theorem mem_closure_iff
    (links : Links)
    (name sup : String) :
    sup ∈ links.closure name ↔
      ReflTransGen (Graph.Next links.supertypes) name sup := by
  rw [closure, Graph.mem_gather_iff, Graph.Reached,
    Graph.nextIn_eq_next fun sub sup hMem =>
      (links.mem_known_iff name sup).mpr (.inr ⟨sub, hMem⟩)]
  simp [List.mem_eraseDups]

/- A type comes first in its closure. -/
theorem exists_closure_eq_cons
    (links : Links)
    (name : String) :
    ∃ rest, links.closure name = name :: rest := by
  rw [closure, Graph.gather, if_pos]
  · exact ⟨_, rfl⟩
  · exact (links.mem_known_iff name name).mpr (.inl rfl)

/- Links with the same supertypes have the same closures. -/
theorem closure_eq_of_supertypes_eq
    {other : Links}
    (hSame : links.supertypes = other.supertypes) :
    links.closure = other.closure := by
  funext name
  have hKnown :
      (name :: links.parents.values
        ++ links.interfaces.values.flatten).eraseDups.Perm
      (name :: other.parents.values
        ++ other.interfaces.values.flatten).eraseDups := by
    rw [List.perm_ext_iff_of_nodup (nodup_eraseDups _)
      (nodup_eraseDups _)]
    intro sup
    rw [mem_known_iff, mem_known_iff, hSame]
  rw [closure, closure, hSame,
    Graph.gather_eq_of_perm hKnown]

end Links

end Uncaught
