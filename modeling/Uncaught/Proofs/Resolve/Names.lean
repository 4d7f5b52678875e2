import Uncaught.Proofs.Data.Except
import Uncaught.Proofs.Data.Sorted
import Uncaught.Proofs.Data.Table
import Uncaught.Resolve.Names

/-
  Laws of the resolution of names: what is resolved is a name,
  and it depends on which types are declared under which name,
  not on the order in which they are.

  Key definitions include:
    * `Names.Same`

  Main declarations:
    * `need_eq_ok_iff`
    * `Names.mem_keys_ofFiles_iff`
    * `Names.Same.resolve?_eq`
    * `Names.Same.resolveException_eq`
-/

namespace Uncaught

------------------------------------------------------------
-- Needed Parts
------------------------------------------------------------

@[simp] theorem need_eq_ok_iff
    {α : Type}
    (key : String)
    (x : Option α)
    (a : α) :
    need key x = .ok a ↔ x = some a := by
  cases x <;> simp [need]

@[simp] theorem need_some
    {α : Type}
    (key : String)
    (a : α) :
    need key (some a) = .ok a := rfl

namespace Names

------------------------------------------------------------
-- Declared Types
------------------------------------------------------------

variable {n other : Names} {files : List FileSummary}

theorem declares_iff
    (n : Names)
    (name : String) :
    n.declares name = true ↔ ∃ t, n.types.get? name = some t := by
  rw [declares, Table.contains_iff, Table.mem_keys_iff]

/- The types of a file, each with the scope of the file. -/
def declared
    (f : FileSummary) : List (String × DeclaredType) :=
  f.types.map fun t => (t.fqn, ⟨t, Scope.ofFile f⟩)

theorem types_ofFiles
    (files : List FileSummary) :
    (ofFiles files).types =
      .ofList (files.flatMap declared) :=
  rfl

/- The declared types are the types of some file. -/
theorem exists_of_get?_ofFiles
    {name : String}
    {t : DeclaredType}
    (hType : (ofFiles files).types.get? name = some t) :
    ∃ f ∈ files, t.summary ∈ f.types ∧ t.summary.fqn = name ∧
      t.scope = Scope.ofFile f := by
  rw [types_ofFiles] at hType
  rcases List.mem_flatMap.mp (Table.mem_of_get?_ofList hType) with
    ⟨f, hFile, hMem⟩
  rcases List.mem_map.mp hMem with ⟨summary, hSummary, hEntry⟩
  cases hEntry
  exact ⟨f, hFile, hSummary, rfl, rfl⟩

theorem mem_keys_ofFiles_iff
    (files : List FileSummary)
    (name : String) :
    name ∈ (ofFiles files).types.keys ↔
      ∃ f ∈ files, ∃ t ∈ f.types, t.fqn = name := by
  rw [types_ofFiles, Table.mem_keys_ofList]
  simp only [List.map_flatMap, declared, List.map_map,
    List.mem_flatMap, List.mem_map, Function.comp_apply]

/- A type is never resolved to the empty name. -/
theorem ne_empty_of_resolve?
    {name found : String}
    {owner : Option String}
    (hFound : n.resolve? name owner = some found) :
    found ≠ "" := by
  rw [resolve?, Option.filter_eq_some_iff] at hFound
  simpa using hFound.2

/- The name of a declared type is resolved to the type. -/
theorem resolve?_of_declares
    {name : String}
    (hDeclares : n.declares (element name) = true)
    (hName : name ≠ "")
    (hElement : element name ∉ "" :: primitives)
    (owner : Option String) :
    n.resolve? name owner = some (element name) := by
  rw [List.mem_cons, not_or] at hElement
  have hResolve : n.resolve name owner = some (element name) := by
    simp [resolve, isQualified, hDeclares, hName, hElement.2]
  rw [resolve?, hResolve, Option.filter_eq_some_iff]
  exact ⟨rfl, by simpa using hElement.1⟩

------------------------------------------------------------
-- Same Names
------------------------------------------------------------

/- Names that declare the same types. -/
def Same
    (n other : Names) : Prop :=
  ∀ name, n.types.get? name = other.types.get? name

namespace Same

variable (hSame : n.Same other)

include hSame

theorem keys_perm :
    n.types.keys.Perm other.types.keys := by
  apply (List.perm_ext_iff_of_nodup n.types.nodup
    other.types.nodup).mpr
  intro name
  change name ∈ n.types.keys ↔ name ∈ other.types.keys
  rw [Table.mem_keys_iff, Table.mem_keys_iff, hSame name]

theorem declares_eq :
    n.declares = other.declares := by
  funext name
  rw [declares, declares, Table.contains, Table.contains,
    hSame name]

theorem scopeOf_eq :
    n.scopeOf = other.scopeOf := by
  funext owner
  unfold scopeOf
  simp only [hSame _]

/- The types around a type do not depend on what is looked at. -/
theorem enclosing_eq
    {unseen others : List String}
    (hPerm : unseen.Perm others)
    (owner : Option String) :
    n.enclosing unseen owner = other.enclosing others owner := by
  fun_induction enclosing n unseen owner generalizing others with
  | case1 => rw [enclosing]
  | case2 unseen o hKnown ih =>
      have hOther : o ∈ others ∧ o ≠ "" :=
        ⟨hPerm.mem_iff.mp hKnown.1, hKnown.2⟩
      rw [enclosing, dif_pos hOther, ← hSame o,
        ih (hPerm.erase o)]
  | case3 unseen o hUnknown =>
      have hOther : ¬(o ∈ others ∧ o ≠ "") := by
        rwa [← hPerm.mem_iff]
      rw [enclosing, dif_neg hOther]

theorem simple?_eq :
    n.simple? = other.simple? := by
  have hScopes : n.scopes = other.scopes := by
    funext owner
    exact hSame.enclosing_eq hSame.keys_perm owner
  have hKeys :
      sortNames n.types.keys = sortNames other.types.keys :=
    sortNames_eq_of_perm hSame.keys_perm
  funext name owner
  unfold simple? nested? imported? neighbour? anywhere? wildcard?
  rw [hScopes, hKeys, hSame.declares_eq, hSame.scopeOf_eq]

/- A name is resolved the same. -/
theorem resolve?_eq :
    n.resolve? = other.resolve? := by
  funext name owner
  unfold resolve? resolve resolveHead isQualified
  rw [hSame.simple?_eq, hSame.declares_eq]

theorem resolveException_eq :
    n.resolveException = other.resolveException := by
  funext name owner
  unfold resolveException
  rw [hSame.resolve?_eq]

end Same

end Names

end Uncaught
