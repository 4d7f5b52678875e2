import Uncaught.Proofs.Java.TypeNames

/-
  The summaries of compilation units can be resolved. Each step
  of the resolution finds what it needs, and the way from a type
  to the types around it comes to an end, also where several
  files declare a type of one name.

  Key definitions include:
    * `Names.Walk`
    * `Names.NestedByLength`

  Main declarations:
    * `Names.walk_enclosing`
    * `Names.nestedByLength_ofFiles`
    * `Resolution.succeeds_of_outlined`
    * `Resolution.succeeds_of_sources`
    * `Resolution.resolves_summaries`
-/

namespace Uncaught

namespace Names

variable {n : Names} {files : List FileSummary}

------------------------------------------------------------
-- Walks
------------------------------------------------------------

/-
  The types on the way from a type to the one around it, and on
  from there, up to the first name that no type of the project
  has. Where types stood in each other in a circle, there would
  be no walk.
-/
inductive Walk
    (n : Names) : Option String → List String → Prop where
  | outside
      {owner : Option String}
      (hNone :
        ∀ name, owner = some name → name ≠ "" →
          n.types.get? name = none) :
      Walk n owner []
  | inside
      {name : String}
      {t : DeclaredType}
      {around : List String}
      (hName : name ≠ "")
      (hType : n.types.get? name = some t)
      (hOuter : Walk n t.summary.outer around) :
      Walk n (some name) (name :: around)

/-
  Each type that has a name is longer in name than the type
  around it.
-/
def NestedByLength
    (n : Names) : Prop :=
  ∀ name t outer, name ≠ "" → n.types.get? name = some t →
    t.summary.outer = some outer → outer.length < name.length

/-
  Where names grow inwards, looking only at types that were not
  seen before leaves none out: those still to come are shorter
  than all that were seen.
-/
theorem walk_enclosing
    (hNested : n.NestedByLength)
    {unseen : List String}
    {owner : Option String}
    (hKeys : ∀ name ∈ unseen, name ∈ n.types.keys)
    (hShorter :
      ∀ o, owner = some o → ∀ name ∈ n.types.keys,
        name.length ≤ o.length → name ∈ unseen) :
    n.Walk owner (n.enclosing unseen owner) := by
  fun_induction enclosing n unseen owner with
  | case1 =>
      apply Walk.outside
      intro name hOwner
      cases hOwner
  | case2 unseen o hKnown ih =>
      rcases (Table.mem_keys_iff _ _).mp (hKeys o hKnown.1) with
        ⟨t, hType⟩
      rw [hType, Option.bind_some] at ih ⊢
      refine .inside hKnown.2 hType (ih ?_ ?_)
      · intro name hMem
        exact hKeys name (List.mem_of_mem_erase hMem)
      · intro outer hOuter name hKey hLength
        have hLess := hNested o t outer hKnown.2 hType hOuter
        have hOther : name ≠ o := by
          rintro rfl
          omega
        exact (List.mem_erase_of_ne hOther).mpr
          (hShorter o rfl name hKey (by omega))
  | case3 unseen o hUnknown =>
      apply Walk.outside
      intro name hOwner hName
      cases hOwner
      by_contra hType
      have hKey : o ∈ n.types.keys :=
        (Table.mem_keys_iff _ _).mpr
          (Option.ne_none_iff_exists'.mp hType)
      exact hUnknown
        ⟨hShorter o rfl o hKey (Nat.le_refl _), hName⟩

theorem walk_scopes
    (hNested : n.NestedByLength)
    (owner : Option String) :
    n.Walk owner (n.scopes owner) := by
  apply walk_enclosing hNested
  · exact fun name hKey => hKey
  · exact fun o _ name hKey _ => hKey

/-
  Whichever file a type of a name is taken from, the type is
  longer in name than the one around it there.
-/
theorem nestedByLength_ofFiles
    (hOutlined : ∀ f ∈ files, f.Outlined) :
    (ofFiles files).NestedByLength := by
  intro name t outer hName hType hOuter
  rcases exists_of_get?_ofFiles hType with
    ⟨f, hFile, hMem, rfl, -⟩
  exact (hOutlined f hFile).types.length_outer_lt hMem hName
    hOuter

end Names

namespace Resolution

variable {files : List FileSummary}

------------------------------------------------------------
-- Totality
------------------------------------------------------------

/- Outlined files can be resolved. -/
theorem succeeds_of_outlined
    (hOutlined : ∀ f ∈ files, f.Outlined) :
    Succeeds (ofFiles files) := by
  apply succeeds_ofFiles
  · intro f hFile
    exact (hOutlined f hFile).complete
  · intro f hFile s hMem
    rcases (hOutlined f hFile).statements s hMem with
      ⟨m, hMethod, text, hSig, hOwner⟩
    have hText : text ∈ f.methodTexts :=
      List.mem_filterMap.mpr ⟨m, hMethod, hSig⟩
    exact ⟨f, hFile, text, hText, hOwner⟩

/- What is read from sources can be resolved. -/
theorem succeeds_of_sources
    (hSources :
      ∀ f ∈ files, ∃ (src : Java.Source) (path : String),
        src.summary path = .ok f) :
    Succeeds (ofFiles files) := by
  apply succeeds_of_outlined
  intro f hFile
  rcases hSources f hFile with ⟨src, path, hSummary⟩
  rcases Java.exists_unit_of_summary hSummary with
    ⟨unit, hUnit⟩
  exact Java.outlined_of_summary hUnit

/-
  The summaries of compilation units are outlined, with each
  type named after the one that it stands in, they can be
  resolved, and all walks through their types end.
-/
theorem resolves_summaries
    {files : List FileSummary}
    (hUnits :
      ∀ f ∈ files, ∃ (src : Java.Source) (path : String)
        (unit : Java.CompilationUnit),
        unit.summary src path = .ok f) :
    (∀ f ∈ files, f.Outlined) ∧
      (∀ f ∈ files, (∀ t ∈ f.types, t.name ≠ some "") →
        f.TypesNested) ∧
      (∀ f ∈ files,
        (∀ t ∈ f.types, ∀ name ∈ t.name, Text.IsPart name) →
          f.TypesNamed) ∧
      (∃ r, ofFiles files = .ok r) ∧
        ∀ owner, (Names.ofFiles files).Walk owner
          ((Names.ofFiles files).scopes owner) := by
  have hOutlined : ∀ f ∈ files, f.Outlined := by
    intro f hFile
    rcases hUnits f hFile with ⟨src, path, unit, hSummary⟩
    exact Java.outlined_of_summary hSummary
  refine ⟨hOutlined, ?_, ?_, succeeds_of_outlined hOutlined,
    Names.walk_scopes (Names.nestedByLength_ofFiles hOutlined)⟩
  · intro f hFile hNames
    exact (hOutlined f hFile).typesNested hNames
  · intro f hFile hNames
    rcases hUnits f hFile with ⟨src, path, unit, hSummary⟩
    exact Java.typesNamed_of_summary hSummary hNames

/- The head of a class that extends and implements nothing. -/
def classHead
    (name span : Java.Span) : Java.TypeHead where
  kind := .plainClass
  name
  extended := []
  implemented := []
  span

/-
  The units of two sources that declare one name, as a type of a
  package and as a type in another type.
-/
def declaringUnits : List (String × Java.CompilationUnit) := [
  ("package a.B; class C \x7b void m() \x7b n(); \x7d \x7d",
    { package := some ⟨8, 11⟩
      imports := []
      types := [
        ⟨classHead ⟨19, 20⟩ ⟨13, 42⟩,
          [.method {
            span := ⟨23, 40⟩
            name := some ⟨28, 29⟩
            parameters := []
            throws := []
            body := [
              .node (.call none ⟨34, 35⟩ 0) ⟨34, 37⟩ []] }]⟩] }),
  ("package a; class B \x7b class C \x7b \x7d \x7d",
    { package := some ⟨8, 9⟩
      imports := []
      types := [
        ⟨classHead ⟨17, 18⟩ ⟨11, 34⟩,
          [.type (classHead ⟨27, 28⟩ ⟨21, 32⟩) []]⟩] })]

/- What is read of the two units. -/
def declaredTwice : List FileSummary :=
  declaringUnits.filterMap fun (text, unit) =>
    (unit.summary (Java.Source.ofString text) "").toOption

/- The later declaration counts, and with it the type around. -/
theorem resolves_summaries_declaredTwice :
    (declaredTwice.flatMap fun f =>
      f.types.map fun t => (t.fqn, t.outer)) =
        [("a.B.C", none), ("a.B", none), ("a.B.C", some "a.B")] ∧
      (Names.ofFiles declaredTwice).scopes (some "a.B.C") =
        ["a.B.C", "a.B"] ∧
      (∀ f ∈ declaredTwice, f.Outlined ∧ f.TypesNested) ∧
      (∃ r, ofFiles declaredTwice = .ok r) ∧
      ∀ owner, (Names.ofFiles declaredTwice).Walk owner
        ((Names.ofFiles declaredTwice).scopes owner) := by
  have hUnits :
      ∀ f ∈ declaredTwice, ∃ (src : Java.Source) (path : String)
        (unit : Java.CompilationUnit),
        unit.summary src path = .ok f := by
    intro f hFile
    rcases List.mem_filterMap.mp hFile with
      ⟨⟨text, unit⟩, -, hSummary⟩
    exact ⟨_, "", unit, toOption_eq_some_iff.mp hSummary⟩
  rcases resolves_summaries hUnits with
    ⟨hOutlined, hNested, -, hResolved, hWalks⟩
  have hNames :
      ∀ f ∈ declaredTwice, ∀ t ∈ f.types,
        t.name ≠ some "" := by
    decide +kernel
  exact ⟨by decide +kernel, by decide +kernel,
    fun f hFile =>
      ⟨hOutlined f hFile, hNested f hFile (hNames f hFile)⟩,
    hResolved, hWalks⟩

end Resolution

end Uncaught
