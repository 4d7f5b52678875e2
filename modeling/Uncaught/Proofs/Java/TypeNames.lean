import Mathlib.Data.List.TakeDrop
import Uncaught.Proofs.Java.Outline

/-
  The names of types. Each type of a compilation unit is named
  after its package or after the type that it stands in, with
  its own name, which has no dot, behind the last dot.

  Key definitions include:
    * `Text.IsPart`
    * `TypeSummary.NamedIn`
    * `FileSummary.TypesNamed`
    * `FileSummary.TypesNested`

  Main declarations:
    * `Text.append_dot_inj`
    * `TypeSummary.NamedIn.fqn_eq_inPackage`
    * `TypeSummary.NamedIn.fqn_eq_append`
    * `FileSummary.Outlined.typesNested`
    * `Java.typesNamed_of_summary`
-/

namespace Uncaught

------------------------------------------------------------
-- Parts of Names
------------------------------------------------------------

namespace Text

/- One part of a qualified name. -/
structure IsPart
    (s : String) : Prop where
  ne_empty : s ≠ ""
  no_dot : '.' ∉ s.toList

instance
    (s : String) : Decidable (IsPart s) :=
  decidable_of_iff (s ≠ "" ∧ '.' ∉ s.toList)
    ⟨fun h => ⟨h.1, h.2⟩, fun h => ⟨h.ne_empty, h.no_dot⟩⟩

theorem bne_dot_of_mem
    {chars : List Char}
    (hDot : '.' ∉ chars) :
    ∀ c ∈ chars, (c != '.') = true := by
  intro c hc
  have hOther : c ≠ '.' := by
    rintro rfl
    exact hDot hc
  simpa using hOther

/- A name is cut before its last part. -/
theorem cutLast_append
    (s : String)
    {part : String}
    (hPart : '.' ∉ part.toList) :
    cutLast '.' (s ++ "." ++ part) = some (s, part) := by
  have hKeep :
      ∀ c ∈ part.toList.reverse, (c != '.') = true :=
    bne_dot_of_mem (mt List.mem_reverse.mp hPart)
  have hChars :
      (s ++ "." ++ part).toList.reverse =
        part.toList.reverse ++ '.' :: s.toList.reverse := by
    simp
  rw [cutLast, hChars, List.span_eq_takeWhile_dropWhile,
    List.takeWhile_append_of_pos hKeep,
    List.dropWhile_append_of_pos hKeep]
  simp

/- Names with a dot are the same if both sides of it are. -/
theorem append_dot_inj
    {s t part other : String}
    (hPart : '.' ∉ part.toList)
    (hOther : '.' ∉ other.toList)
    (hSame : s ++ "." ++ part = t ++ "." ++ other) :
    s = t ∧ part = other := by
  have hCut := cutLast_append s hPart
  rw [hSame, cutLast_append t hOther] at hCut
  cases hCut
  exact ⟨rfl, rfl⟩

theorem dot_mem_append
    (s part : String) :
    '.' ∈ (s ++ "." ++ part).toList := by
  simp

end Text

/- A type of the default package has its own name only. -/
theorem Scope.inPackage_eq
    (package : Option String)
    (name : String) :
    inPackage package name =
      if package.getD "" = "" then
        name
      else
        package.getD "" ++ "." ++ name := by
  cases package with
  | none => rfl
  | some p => simp [Scope.inPackage]

------------------------------------------------------------
-- Names of Types
------------------------------------------------------------

/-
  A type is named after its package, or after the type of its
  file that it stands in.
-/
def TypeSummary.NamedIn
    (f : FileSummary)
    (t : TypeSummary) : Prop :=
  ∃ name, t.name = some name ∧ Text.IsPart name ∧
    ((t.outer = none ∧
        t.fqn = Scope.inPackage f.package name) ∨
      ∃ u ∈ f.types, t.outer = some u.fqn ∧
        t.fqn = u.fqn ++ "." ++ name)

instance
    (f : FileSummary)
    (t : TypeSummary) : Decidable (t.NamedIn f) :=
  decidable_of_iff
    (∃ name ∈ t.name, Text.IsPart name ∧
      ((t.outer = none ∧
          t.fqn = Scope.inPackage f.package name) ∨
        ∃ u ∈ f.types, t.outer = some u.fqn ∧
          t.fqn = u.fqn ++ "." ++ name))
    Iff.rfl

/- All types of a file are named after where they stand. -/
def FileSummary.TypesNamed
    (f : FileSummary) : Prop :=
  ∀ t ∈ f.types, t.NamedIn f

instance
    (f : FileSummary) : Decidable f.TypesNamed :=
  inferInstanceAs (Decidable (∀ t ∈ f.types, t.NamedIn f))

/-
  Each type of a file stands in no other type, or in one that
  comes before it, and then is named after that one.
-/
def FileSummary.TypesNested
    (f : FileSummary) : Prop :=
  ∀ before t after, f.types = before ++ t :: after →
    t.outer = none ∨
      ∃ u ∈ before, ∃ name, t.outer = some u.fqn ∧
        t.name = some name ∧ t.fqn = u.fqn ++ "." ++ name

namespace TypeSummary.NamedIn

variable {f : FileSummary} {t : TypeSummary} {name : String}

/- A type that stands in no other is named after its package. -/
theorem fqn_eq_inPackage
    (hNamed : t.NamedIn f)
    (hOuter : t.outer = none)
    (hName : t.name = some name) :
    t.fqn = Scope.inPackage f.package name := by
  rcases hNamed with
    ⟨own, hOwn, -, ⟨-, hFull⟩ | ⟨u, -, hSome, -⟩⟩
  · rw [hName] at hOwn
    cases hOwn
    exact hFull
  · rw [hOuter] at hSome
    cases hSome

/- A member type is named after the type that it stands in. -/
theorem fqn_eq_append
    (hNamed : t.NamedIn f)
    {outer : String}
    (hOuter : t.outer = some outer)
    (hName : t.name = some name) :
    t.fqn = outer ++ "." ++ name := by
  rcases hNamed with
    ⟨own, hOwn, -, ⟨hNone, -⟩ | ⟨u, -, hSome, hFull⟩⟩
  · rw [hOuter] at hNone
    cases hNone
  · rw [hName] at hOwn
    rw [hOuter] at hSome
    cases hOwn
    cases hSome
    exact hFull

theorem fqn_ne_empty
    (hNamed : t.NamedIn f) :
    t.fqn ≠ "" := by
  intro hEmpty
  have hNoDot : '.' ∉ t.fqn.toList := by
    simp [hEmpty]
  rcases hNamed with
    ⟨own, -, hPart, ⟨-, hFull⟩ | ⟨u, -, -, hFull⟩⟩
  · rw [Scope.inPackage_eq] at hFull
    split at hFull
    · exact hPart.ne_empty (hFull.symm.trans hEmpty)
    · rw [hFull] at hNoDot
      exact hNoDot (Text.dot_mem_append _ own)
  · rw [hFull] at hNoDot
    exact hNoDot (Text.dot_mem_append _ own)

end TypeSummary.NamedIn

------------------------------------------------------------
-- Units
------------------------------------------------------------

/- Among types that nest, each stands in one before it. -/
theorem TypesNest.standsIn
    {earlier before after : List TypeSummary}
    {t : TypeSummary}
    (hNest : TypesNest earlier (before ++ t :: after)) :
    t.StandsIn (before ++ earlier) := by
  induction before generalizing earlier with
  | nil => exact hNest.1
  | cons first rest ih =>
      rcases ih hNest.2 with hNone | ⟨u, hu, hName⟩
      · exact .inl hNone
      · refine .inr ⟨u, ?_, hName⟩
        simp only [List.cons_append, List.mem_cons,
          List.mem_append] at hu ⊢
        tauto

/-
  No name has to be left out where no type has the empty name.
-/
theorem FileSummary.Outlined.typesNested
    {f : FileSummary}
    (hOutlined : f.Outlined)
    (hNames : ∀ t ∈ f.types, t.name ≠ some "") :
    f.TypesNested := by
  intro before t after hTypes
  have hNest := hOutlined.types
  rw [hTypes] at hNest
  rcases hNest.standsIn with
    hNone | ⟨u, hu, name, hOuter, hName, hFull⟩
  · exact .inl hNone
  · rw [List.append_nil] at hu
    have hMem : u ∈ f.types := by
      rw [hTypes]
      exact List.mem_append_left _ hu
    have hOwner : u.fqn ≠ "" := fun hEmpty =>
      hNames u hMem (hOutlined.named u hMem hEmpty)
    exact .inr ⟨u, hu, name, hOuter, hName, hFull hOwner⟩

namespace Java

variable {src : Source} {package : Option String}

theorem qualifiedName_none
    (package : Option String)
    (name : String) :
    qualifiedName package none name =
      Scope.inPackage package name := by
  cases package with
  | none => rfl
  | some p =>
      by_cases hEmpty : p = ""
      · subst hEmpty
        rfl
      · simp [qualifiedName, Scope.inPackage,
          Option.filter, hEmpty]

mutual

/- The types among the members of a type stand in a type. -/
theorem outer_ne_none_of_memberOutline
    {owner : String}
    {m : Member}
    {o : Outline}
    (hOutline : memberOutline src package owner m = .ok o)
    {t : TypeSummary}
    (hMem : t ∈ o.types) :
    t.outer ≠ none := by
  cases m with
  | method m =>
      simp only [memberOutline, methodOutline, bind_eq_ok_iff]
        at hOutline
      rcases hOutline with
        ⟨name, -, params, -, names, -, throws, -, sites, -, hMade⟩
      cases hMade
      simp at hMem
  | fields type names =>
      simp only [memberOutline, bind_eq_ok_iff] at hOutline
      rcases hOutline with ⟨type, -, names, -, hMade⟩
      cases hMade
      simp at hMem
  | type head members =>
      simp only [memberOutline, bind_eq_ok_iff] at hOutline
      rcases hOutline with ⟨u, hSummary, inner, hInner, hMade⟩
      cases hMade
      rcases List.mem_cons.mp hMem with rfl | hMem
      · rw [(isComplete_typeSummary hSummary).2]
        simp
      · exact outer_ne_none_of_membersOutline hInner hMem

theorem outer_ne_none_of_membersOutline
    {owner : String}
    {members : List Member}
    {o : Outline}
    (hOutline : membersOutline src package owner members = .ok o)
    {t : TypeSummary}
    (hMem : t ∈ o.types) :
    t.outer ≠ none := by
  cases members with
  | nil =>
      rw [membersOutline] at hOutline
      cases hOutline
      simp at hMem
  | cons m rest =>
      simp only [membersOutline, bind_eq_ok_iff] at hOutline
      rcases hOutline with ⟨first, hFirst, others, hOthers, hMade⟩
      cases hMade
      rcases List.mem_append.mp hMem with hMem | hMem
      · exact outer_ne_none_of_memberOutline hFirst hMem
      · exact outer_ne_none_of_membersOutline hOthers hMem

end

/- A type that stands in no other is named after its package. -/
theorem fqn_of_typeOutline
    {tree : TypeTree}
    {o : Outline}
    (hOutline : typeOutline src package tree = .ok o)
    {t : TypeSummary}
    (hMem : t ∈ o.types)
    (hOuter : t.outer = none) :
    ∃ name, t.name = some name ∧
      t.fqn = Scope.inPackage package name := by
  simp only [typeOutline, bind_eq_ok_iff] at hOutline
  rcases hOutline with ⟨u, hSummary, inner, hInner, hMade⟩
  cases hMade
  rcases List.mem_cons.mp hMem with rfl | hMem
  · simp only [typeSummary, bind_eq_ok_iff] at hSummary
    rcases hSummary with
      ⟨name, -, extended, -, implemented, -, hMade⟩
    cases hMade
    exact ⟨name, rfl, qualifiedName_none package name⟩
  · exact absurd hOuter
      (outer_ne_none_of_membersOutline hInner hMem)

theorem mem_types_foldr_iff
    (outlines : List Outline)
    (t : TypeSummary) :
    t ∈ (outlines.foldr (· ++ ·) ({} : Outline)).types ↔
      ∃ o ∈ outlines, t ∈ o.types := by
  induction outlines with
  | nil => simp
  | cons o rest ih =>
      simp only [List.mem_cons, exists_eq_or_imp, ← ih]
      exact List.mem_append

/-
  In the summary of a unit all types are named after where they
  stand, if the names in the unit are parts of names.
-/
theorem typesNamed_of_summary
    {path : String}
    {unit : CompilationUnit}
    {f : FileSummary}
    (hSummary : unit.summary src path = .ok f)
    (hNames :
      ∀ t ∈ f.types, ∀ name ∈ t.name, Text.IsPart name) :
    f.TypesNamed := by
  have hNested : f.TypesNested := by
    apply (outlined_of_summary hSummary).typesNested
    intro t hMem hEmpty
    exact (hNames t hMem "" hEmpty).ne_empty rfl
  simp only [CompilationUnit.summary, bind_eq_ok_iff] at hSummary
  rcases hSummary with
    ⟨package, -, imports, -, outlines, hOutlines, hMade⟩
  cases hMade
  intro t hMem
  rcases List.append_of_mem hMem with ⟨before, after, hTypes⟩
  rcases hNested before t after hTypes with
    hNone | ⟨u, hu, name, hOuter, hName, hFull⟩
  · rcases (mem_types_foldr_iff outlines t).mp hMem with
      ⟨o, ho, hIn⟩
    rcases exists_of_mem_right
        (forall₂_of_mapM_eq_ok hOutlines) ho with
      ⟨tree, -, hOutline⟩
    rcases fqn_of_typeOutline hOutline hIn hNone with
      ⟨name, hName, hFull⟩
    exact ⟨name, hName, hNames t hMem name hName,
      .inl ⟨hNone, hFull⟩⟩
  · refine ⟨name, hName, hNames t hMem name hName,
      .inr ⟨u, ?_, hOuter, hFull⟩⟩
    rw [hTypes]
    exact List.mem_append_left _ hu

end Java

end Uncaught
