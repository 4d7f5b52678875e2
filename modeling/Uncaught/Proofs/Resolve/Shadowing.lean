import Mathlib.Data.List.TakeWhile
import Uncaught.Proofs.Java.TypeNames
import Uncaught.Proofs.Resolve.Scopes

/-
  What a simple name means in a type. A type of the default
  package is found by its name wherever the name stands. Other
  than that, a type around the name comes before the imports of
  the file, and these come before the package.

  Key definitions include:
    * `Names.IsSimple`
    * `Names.TopLevel`
    * `Names.HasMember`
    * `Names.Inside`
    * `Names.lastImport?`

  Main declarations:
    * `Names.declares_iff_topLevel`
    * `Names.declares_iff_inside`
    * `Names.resolve_eq_simple?`
    * `Names.simple_names_shadow`
    * `Names.other_packages_capture`
-/

namespace Uncaught

------------------------------------------------------------
-- Simple Names
------------------------------------------------------------

namespace Text

theorem cutFirst_eq_none
    {s : String}
    (hDot : '.' ∉ s.toList) :
    cutFirst '.' s = none := by
  rw [cutFirst, List.span_eq_takeWhile_dropWhile,
    List.dropWhile_eq_nil_iff.mpr (bne_dot_of_mem hDot)]

/- What does not occur is not deleted. -/
theorem deleteAll_eq_self
    {s pat : String}
    {c : Char}
    (hHead : pat.toList.head? = some c)
    (hChar : c ∉ s.toList) :
    deleteAll s pat = s := by
  have hChars :
      ∀ chars : List Char, c ∉ chars →
        deleteFrom pat.toList 0 chars = chars := by
    intro chars
    induction chars with
    | nil => exact fun _ => rfl
    | cons d rest ih =>
        intro hAbsent
        rw [List.mem_cons, not_or] at hAbsent
        have hNot : pat.toList.isPrefixOf (d :: rest) = false := by
          cases hPat : pat.toList with
          | nil =>
              rw [hPat] at hHead
              cases hHead
          | cons e more =>
              rw [hPat] at hHead
              cases hHead
              simp [List.isPrefixOf, hAbsent.1]
        simp [deleteFrom, hNot, ih hAbsent.2]
  rw [deleteAll, hChars s.toList hChar, String.ofList_toList]

end Text

------------------------------------------------------------
-- Platform Types
------------------------------------------------------------

namespace Platform

/- What is found among first entries is one of the entries. -/
theorem mem_of_foldl_insertNew
    {entries : List (String × String)}
    {t : Table String String}
    {k a : String}
    (hFound :
      (entries.foldl (fun t e => t.insertNew e.1 e.2) t).get? k =
        some a) :
    t.get? k = some a ∨ (k, a) ∈ entries := by
  induction entries generalizing t with
  | nil => exact .inl hFound
  | cons e rest ih =>
      rcases ih hFound with hOld | hRest
      · simp only [Table.insertNew] at hOld
        split at hOld
        · exact .inl hOld
        · rcases Table.get?_insert_cases hOld with
            ⟨rfl, rfl⟩ | hOld
          · exact .inr List.mem_cons_self
          · exact .inl hOld
      · exact .inr (List.mem_cons_of_mem _ hRest)

/- All known types stand in packages. -/
theorem dot_mem_of_isKnown
    {name : String}
    (hKnown : isKnown name = true) :
    '.' ∈ name.toList := by
  have hOwners : ∀ m ∈ methods, '.' ∈ m.owner.toList := by
    decide +kernel
  have hParents : ∀ e ∈ exceptionParents, '.' ∈ e.1.toList := by
    decide +kernel
  rw [isKnown, List.contains_iff_mem, qualifiedNames,
    List.mem_eraseDups, List.mem_append] at hKnown
  rcases hKnown with hName | hOwner
  · rcases (Table.mem_values_iff _ _).mp hName with ⟨k, hFound⟩
    rcases mem_of_foldl_insertNew hFound with hNone | hEntry
    · simp at hNone
    · simp only [List.mem_append, List.mem_map, List.map_append,
        List.map_map, Prod.mk.injEq, Function.comp_apply]
        at hEntry
      rcases hEntry with
        ⟨n, -, -, rfl⟩ | ⟨m, hMem, -, rfl⟩ | ⟨e, hMem, -, rfl⟩
      · exact Text.dot_mem_append langPackage n
      · exact hOwners m hMem
      · exact hParents e hMem
  · rcases List.mem_map.mp hOwner with ⟨m, hMem, rfl⟩
    exact hOwners m hMem

end Platform

------------------------------------------------------------
-- Declared Names
------------------------------------------------------------

namespace Names

variable {files : List FileSummary} {name : String}

/- A simple name of a class. -/
structure IsSimple
    (name : String) : Prop extends Text.IsPart name where
  no_bracket : '[' ∉ name.toList
  no_primitive : name ∉ primitives

/-
  A package declares a type that stands in no other type. The
  default package has the empty name.
-/
def TopLevel
    (files : List FileSummary)
    (package name : String) : Prop :=
  ∃ f ∈ files, ∃ t ∈ f.types,
    f.package.getD "" = package ∧ t.outer = none ∧
      t.name = some name

/- A type has a member type. -/
def HasMember
    (files : List FileSummary)
    (outer name : String) : Prop :=
  ∃ f ∈ files, ∃ t ∈ f.types,
    t.outer = some outer ∧ t.name = some name

instance
    (files : List FileSummary)
    (package name : String) :
    Decidable (TopLevel files package name) :=
  inferInstanceAs (Decidable (∃ f ∈ files, ∃ t ∈ f.types,
    f.package.getD "" = package ∧ t.outer = none ∧
      t.name = some name))

instance
    (files : List FileSummary)
    (outer name : String) :
    Decidable (HasMember files outer name) :=
  inferInstanceAs (Decidable (∃ f ∈ files, ∃ t ∈ f.types,
    t.outer = some outer ∧ t.name = some name))

/-
  A type has a member type, or a package that is named like the
  type declares one.
-/
def Inside
    (files : List FileSummary)
    (outer name : String) : Prop :=
  HasMember files outer name ∨ TopLevel files outer name

instance
    (files : List FileSummary)
    (outer name : String) :
    Decidable (Inside files outer name) :=
  inferInstanceAs (Decidable (_ ∨ _))

/- The last import of a single type with a simple name. -/
def lastImport?
    (f : FileSummary)
    (name : String) : Option String :=
  (f.imports.filter fun i =>
    decide (Platform.simpleName i = name)
      && (Scope.wildcardOf i).isNone).getLast?

/- The declared names are those of the types of the files. -/
theorem declares_ofFiles_iff
    (files : List FileSummary)
    (name : String) :
    (ofFiles files).declares name = true ↔
      ∃ f ∈ files, ∃ t ∈ f.types, t.fqn = name := by
  rw [declares, Table.contains_iff, mem_keys_ofFiles_iff]

/- The types of a package are declared. -/
theorem declares_of_topLevel
    (hFiles : ∀ f ∈ files, f.TypesNamed)
    (package : Option String)
    (hTop : TopLevel files (package.getD "") name) :
    (ofFiles files).declares (Scope.inPackage package name) =
      true := by
  rcases hTop with
    ⟨f, hFile, t, hMem, hPackage, hOuter, hName⟩
  rw [declares_ofFiles_iff]
  refine ⟨f, hFile, t, hMem, ?_⟩
  rw [(hFiles f hFile t hMem).fqn_eq_inPackage hOuter hName,
    Scope.inPackage_eq, Scope.inPackage_eq, hPackage]

/- A name without a dot is declared by the default package. -/
theorem declares_iff_topLevel
    (hFiles : ∀ f ∈ files, f.TypesNamed)
    (hName : Text.IsPart name) :
    (ofFiles files).declares name = true ↔
      TopLevel files "" name := by
  constructor
  · rw [declares_ofFiles_iff]
    rintro ⟨f, hFile, t, hMem, rfl⟩
    rcases hFiles f hFile t hMem with
      ⟨own, hOwn, -, ⟨hOuter, hFull⟩ | ⟨u, -, -, hFull⟩⟩
    · rw [Scope.inPackage_eq] at hFull
      split at hFull
      · next hDefault =>
          exact ⟨f, hFile, t, hMem, hDefault, hOuter,
            by rw [hOwn, hFull]⟩
      · rw [hFull] at hName
        exact absurd (Text.dot_mem_append _ own) hName.no_dot
    · rw [hFull] at hName
      exact absurd (Text.dot_mem_append _ own) hName.no_dot
  · exact declares_of_topLevel hFiles none

/-
  A name with a dot is declared by a type, as that of a member,
  or by a package.
-/
theorem declares_iff_inside
    (hFiles : ∀ f ∈ files, f.TypesNamed)
    (hName : Text.IsPart name)
    {outer : String}
    (hOuter : outer ≠ "") :
    (ofFiles files).declares (outer ++ "." ++ name) = true ↔
      Inside files outer name := by
  constructor
  · rw [declares_ofFiles_iff]
    rintro ⟨f, hFile, t, hMem, hFull⟩
    rcases hFiles f hFile t hMem with
      ⟨own, hOwn, hPart, ⟨hNone, hTop⟩ | ⟨u, -, hSome, hMember⟩⟩
    · rw [hFull, Scope.inPackage_eq] at hTop
      split at hTop
      · rw [← hTop] at hPart
        exact absurd (Text.dot_mem_append _ name) hPart.no_dot
      · rcases Text.append_dot_inj hName.no_dot hPart.no_dot
            hTop with
          ⟨hPackage, rfl⟩
        exact .inr ⟨f, hFile, t, hMem, hPackage.symm, hNone,
          hOwn⟩
    · rw [hFull] at hMember
      rcases Text.append_dot_inj hName.no_dot hPart.no_dot
          hMember with
        ⟨rfl, rfl⟩
      exact .inl ⟨f, hFile, t, hMem, hSome, hOwn⟩
  · rintro (⟨f, hFile, t, hMem, hSome, hOwn⟩ | hTop)
    · rw [declares_ofFiles_iff]
      exact ⟨f, hFile, t, hMem,
        (hFiles f hFile t hMem).fqn_eq_append hSome hOwn⟩
    · have hDeclares :=
        declares_of_topLevel hFiles (some outer) hTop
      simpa [Scope.inPackage, hOuter] using hDeclares

/- Types are longer in name than the types around them. -/
theorem nestedByLength_of_typesNamed
    (hFiles : ∀ f ∈ files, f.TypesNamed) :
    (ofFiles files).NestedByLength := by
  intro name t outer _ hType hOuter
  rcases exists_of_get?_ofFiles hType with
    ⟨f, hFile, hMem, rfl, -⟩
  rcases hFiles f hFile _ hMem with ⟨own, hOwn, -, -⟩
  rw [(hFiles f hFile _ hMem).fqn_eq_append hOuter hOwn,
    String.length_append, String.length_append]
  have hDot : ".".length = 1 := rfl
  omega

------------------------------------------------------------
-- Rules
------------------------------------------------------------

section Rules

variable {owner : String} {t : TypeSummary} {f : FileSummary}

theorem element_eq
    (hName : IsSimple name) :
    element name = name := by
  rw [element, Text.deleteAll_eq_self (c := '[') rfl
    hName.no_bracket, Text.deleteAll_eq_self (c := '.') rfl
    hName.no_dot]

/- A type of the default package is found everywhere. -/
theorem resolve_of_declares
    {n : Names}
    (hName : IsSimple name)
    (hDeclares : n.declares name = true)
    (owner : Option String) :
    n.resolve name owner = some name := by
  simp [resolve, element_eq hName, hName.ne_empty,
    hName.no_primitive, isQualified, hDeclares]

/- Any other simple name is looked up rule by rule. -/
theorem resolve_eq_simple?
    {n : Names}
    (hName : IsSimple name)
    (hDeclares : n.declares name = false)
    (owner : Option String) :
    n.resolve name owner = n.simple? name owner := by
  have hKnown : Platform.isKnown name = false := by
    rw [← Bool.not_eq_true]
    exact fun hKnown =>
      hName.no_dot (Platform.dot_mem_of_isKnown hKnown)
  simp [resolve, element_eq hName, hName.ne_empty,
    hName.no_primitive, isQualified, hDeclares, hKnown,
    Text.cutFirst_eq_none hName.no_dot]

/- The types around a type have names. -/
theorem Walk.ne_empty
    {n : Names}
    {owner : Option String}
    {around : List String}
    (hWalk : n.Walk owner around) :
    ∀ o ∈ around, o ≠ "" := by
  induction hWalk with
  | outside => simp
  | inside hName _ _ ih =>
      intro o ho
      rcases List.mem_cons.mp ho with rfl | ho
      · exact hName
      · exact ih o ho

theorem ne_empty_of_mem_scopes
    (hFiles : ∀ f ∈ files, f.TypesNamed)
    {owner : Option String}
    {o : String}
    (hMem : o ∈ (ofFiles files).scopes owner) :
    o ≠ "" :=
  (walk_scopes (nestedByLength_of_typesNamed hFiles)
    owner).ne_empty o hMem

/- The innermost type with a type inside counts. -/
theorem nested?_of_inside
    (hFiles : ∀ f ∈ files, f.TypesNamed)
    (hName : Text.IsPart name)
    {owner : Option String}
    {inner outer : List String}
    {o : String}
    (hAround :
      (ofFiles files).scopes owner = inner ++ o :: outer)
    (hInner : ∀ i ∈ inner, ¬Inside files i name)
    (hInside : Inside files o name) :
    (ofFiles files).nested? name owner =
      some (o ++ "." ++ name) := by
  have hNamed :
      ∀ i ∈ inner ++ o :: outer,
        ((ofFiles files).declares (i ++ "." ++ name) = true ↔
          Inside files i name) := by
    intro i hMem
    rw [← hAround] at hMem
    exact declares_iff_inside hFiles hName
      (ne_empty_of_mem_scopes hFiles hMem)
  rw [nested?, hAround, List.find?_eq_some_iff_append]
  refine ⟨(hNamed o (by simp)).mpr hInside,
    inner.map (· ++ "." ++ name), outer.map (· ++ "." ++ name),
    by simp, ?_⟩
  intro full hFull
  rcases List.mem_map.mp hFull with ⟨i, hMem, rfl⟩
  have hNot := hInner i hMem
  rw [← hNamed i (List.mem_append_left _ hMem)] at hNot
  simpa using hNot

theorem nested?_eq_none
    (hFiles : ∀ f ∈ files, f.TypesNamed)
    (hName : Text.IsPart name)
    {owner : Option String}
    (hAround :
      ∀ o ∈ (ofFiles files).scopes owner,
        ¬Inside files o name) :
    (ofFiles files).nested? name owner = none := by
  rw [nested?, List.find?_eq_none]
  intro full hFull
  rcases List.mem_map.mp hFull with ⟨o, hMem, rfl⟩
  rw [declares_iff_inside hFiles hName
    (ne_empty_of_mem_scopes hFiles hMem)]
  exact hAround o hMem

/- A type sees its package and the imports of its file. -/
theorem scopeOf_eq
    (hFiles : ∀ f ∈ files, f.TypesNamed)
    (hOwner :
      (ofFiles files).types.get? owner =
        some ⟨t, Scope.ofFile f⟩) :
    (ofFiles files).scopeOf (some owner) =
      some (Scope.ofFile f) := by
  rcases exists_of_get?_ofFiles hOwner with
    ⟨g, hFile, hMem, rfl, -⟩
  have hName := (hFiles g hFile t hMem).fqn_ne_empty
  simp [scopeOf, hName, hOwner]

theorem lookup_map_self
    (key : String → String)
    (items : List String)
    (k : String) :
    (items.map fun i => (key i, i)).lookup k =
      (items.filter fun i => decide (key i = k)).head? := by
  induction items with
  | nil => rfl
  | cons i rest ih =>
      by_cases hKey : key i = k
      · simp [hKey]
      · have hOther : (k == key i) = false := by
          simpa using fun h => hKey h.symm
        simp [hKey, List.lookup_cons, hOther, ih]

/- Of the imports with one name, the last one counts. -/
theorem get?_singles
    (f : FileSummary)
    (name : String) :
    (Scope.ofFile f).singles.get? name = lastImport? f name := by
  change (Table.ofList _).get? name = _
  rw [Table.get?_ofList, ← List.map_reverse, lookup_map_self,
    lastImport?, List.getLast?_eq_head?_reverse,
    ← List.filter_reverse, ← List.filter_reverse,
    List.filter_filter]

/- What is imported comes after what stands around. -/
theorem simple?_of_import
    (hFiles : ∀ f ∈ files, f.TypesNamed)
    (hOwner :
      (ofFiles files).types.get? owner =
        some ⟨t, Scope.ofFile f⟩)
    (hNested :
      (ofFiles files).nested? name (some owner) = none)
    {imported : String}
    (hImport : lastImport? f name = some imported) :
    (ofFiles files).simple? name (some owner) =
      some imported := by
  have hImported :
      (ofFiles files).imported? name (some owner) =
        some imported := by
    rw [imported?, scopeOf_eq hFiles hOwner, Option.bind_some,
      get?_singles, hImport]
  simp [simple?, hNested, hImported]

/- The package comes after the imports. -/
theorem simple?_of_topLevel
    (hFiles : ∀ f ∈ files, f.TypesNamed)
    (hOwner :
      (ofFiles files).types.get? owner =
        some ⟨t, Scope.ofFile f⟩)
    (hNested :
      (ofFiles files).nested? name (some owner) = none)
    (hImport : lastImport? f name = none)
    (hTop : TopLevel files (f.package.getD "") name) :
    (ofFiles files).simple? name (some owner) =
      some (Scope.inPackage f.package name) := by
  have hScope := scopeOf_eq hFiles hOwner
  have hImported :
      (ofFiles files).imported? name (some owner) = none := by
    rw [imported?, hScope, Option.bind_some, get?_singles,
      hImport]
  have hNeighbour :
      (ofFiles files).neighbour? name (some owner) =
        some (Scope.inPackage f.package name) := by
    rw [neighbour?, hScope]
    exact if_pos (declares_of_topLevel hFiles f.package hTop)
  simp [simple?, hNested, hImported, hNeighbour]

end Rules

------------------------------------------------------------
-- Shadowing
------------------------------------------------------------

/-
  A type of the default package is what its name means in every
  type. If there is none, the name means the innermost type
  inside a type around it, then the last import of the name, and
  then the type of the package, whatever else is declared.
-/
theorem simple_names_shadow
    (hFiles : ∀ f ∈ files, f.TypesNamed)
    {owner : String}
    {t : TypeSummary}
    {f : FileSummary}
    (hOwner :
      (ofFiles files).types.get? owner =
        some ⟨t, Scope.ofFile f⟩)
    (hName : IsSimple name) :
    (TopLevel files "" name →
      (ofFiles files).resolve name (some owner) = some name) ∧
    (¬TopLevel files "" name →
      (ofFiles files).Walk (some owner)
        ((ofFiles files).scopes (some owner)) ∧
      (∀ inner o outer,
        (ofFiles files).scopes (some owner) =
          inner ++ o :: outer →
        (∀ i ∈ inner, ¬Inside files i name) →
        Inside files o name →
        (ofFiles files).resolve name (some owner) =
          some (o ++ "." ++ name)) ∧
      ((∀ o ∈ (ofFiles files).scopes (some owner),
          ¬Inside files o name) →
        (∀ imported, lastImport? f name = some imported →
          (ofFiles files).resolve name (some owner) =
            some imported) ∧
        (lastImport? f name = none →
          TopLevel files (f.package.getD "") name →
          (ofFiles files).resolve name (some owner) =
            some (Scope.inPackage f.package name)))) := by
  have hDeclares :=
    declares_iff_topLevel hFiles hName.toIsPart
  refine ⟨?_, ?_⟩
  · intro hTop
    exact resolve_of_declares hName (hDeclares.mpr hTop) _
  · intro hNotTop
    have hResolve := resolve_eq_simple? hName
      (Bool.not_eq_true _ ▸ mt hDeclares.mp hNotTop)
      (some owner)
    rw [hResolve]
    refine ⟨walk_scopes (nestedByLength_of_typesNamed hFiles) _,
      ?_, ?_⟩
    · intro inner o outer hAround hInner hInside
      have hNested := nested?_of_inside hFiles hName.toIsPart
        hAround hInner hInside
      simp [simple?, hNested]
    · intro hAround
      have hNested :=
        nested?_eq_none hFiles hName.toIsPart hAround
      exact ⟨fun _ => simple?_of_import hFiles hOwner hNested,
        simple?_of_topLevel hFiles hOwner hNested⟩

/-
  The summary of a file with classes only. Each class is given
  by the one that it stands in, if there is one, and its name.
-/
def classesIn
    (package : Option String)
    (imports : List String)
    (classes : List (Option String × String)) :
    FileSummary where
  path := ""
  package
  imports
  types := classes.map fun (outer, name) =>
    { kind := some "class"
      name := some name
      fqn := Java.qualifiedName package outer name
      outer
      extended := some []
      implemented := some [] }
  methods := some []
  statements := some []

/- A declared type has a file, which is as all its files are. -/
theorem exists_file_of_declares
    {P : FileSummary → Prop}
    {owner : String}
    (hDeclares : (ofFiles files).declares owner = true)
    (hEach :
      ∀ f ∈ files, ∀ t ∈ f.types, t.fqn = owner → P f) :
    ∃ t f, (ofFiles files).types.get? owner =
      some ⟨t, Scope.ofFile f⟩ ∧ P f := by
  rcases (declares_iff _ _).mp hDeclares with
    ⟨⟨t, scope⟩, hType⟩
  rcases exists_of_get?_ofFiles hType with
    ⟨f, hFile, hMem, hName, rfl⟩
  exact ⟨t, f, hType, hEach f hFile t hMem hName⟩

/-
  Classes of one name: in a class, in its package, and imported;
  and classes of another name, in the package and outside of all
  packages.
-/
def namesakes : List FileSummary := [
  classesIn (some "p") ["q.X"] [
    (none, "L"),
    (none, "M"),
    (some "p.M", "X"),
    (some "p.M", "N")],
  classesIn (some "p") [] [
    (none, "K"),
    (none, "X"),
    (none, "Z")],
  classesIn (some "q") [] [(none, "X")],
  classesIn none [] [(none, "Z")]]

/- What the two names mean in some types. -/
theorem simple_names_shadow_namesakes :
    (∀ f ∈ namesakes, f.TypesNamed) ∧
      (ofFiles namesakes).resolve "X" (some "p.M.N") =
        some "p.M.X" ∧
      (ofFiles namesakes).resolve "X" (some "p.L") =
        some "q.X" ∧
      (ofFiles namesakes).resolve "X" (some "p.K") =
        some "p.X" ∧
      (ofFiles namesakes).resolve "Z" (some "p.K") =
        some "Z" := by
  have hX : IsSimple "X" :=
    ⟨by decide, by decide, by decide⟩
  have hZ : IsSimple "Z" :=
    ⟨by decide, by decide, by decide⟩
  have hSample :
      (∀ f ∈ namesakes, f.TypesNamed) ∧
      ((ofFiles namesakes).declares "p.M.N" = true ∧
        (ofFiles namesakes).declares "p.L" = true ∧
        (ofFiles namesakes).declares "p.K" = true) ∧
      ((ofFiles namesakes).scopes (some "p.M.N") =
          ["p.M.N", "p.M"] ∧
        (ofFiles namesakes).scopes (some "p.L") = ["p.L"] ∧
        (ofFiles namesakes).scopes (some "p.K") = ["p.K"]) ∧
      (¬TopLevel namesakes "" "X" ∧
        TopLevel namesakes "" "Z" ∧
        TopLevel namesakes "p" "X") ∧
      (Inside namesakes "p.M" "X" ∧
        ∀ o ∈ ["p.M.N", "p.L", "p.K"],
          ¬Inside namesakes o "X") ∧
      ∀ f ∈ namesakes, ∀ t ∈ f.types,
        (t.fqn = "p.L" → lastImport? f "X" = some "q.X") ∧
        (t.fqn = "p.K" →
          f.package = some "p" ∧ lastImport? f "X" = none) := by
    decide +kernel
  rcases hSample with
    ⟨hFiles, hDeclares, hScopes, ⟨hNone, hDefault, hTop⟩,
      ⟨hInside, hNot⟩, hImports⟩
  rcases exists_file_of_declares (P := fun _ => True)
      hDeclares.1 (fun _ _ _ _ _ => trivial) with
    ⟨_, _, hInner, -⟩
  rcases exists_file_of_declares hDeclares.2.1
      (fun f hf t ht => (hImports f hf t ht).1) with
    ⟨_, _, hImporting, hImport⟩
  rcases exists_file_of_declares hDeclares.2.2
      (fun f hf t ht => (hImports f hf t ht).2) with
    ⟨_, f, hPlain, hPackage, hNoImport⟩
  refine ⟨hFiles, ?_, ?_, ?_, ?_⟩
  · exact ((simple_names_shadow hFiles hInner hX).2 hNone).2.1
      ["p.M.N"] "p.M" [] hScopes.1
      (by simpa using hNot "p.M.N") hInside
  · refine (((simple_names_shadow hFiles hImporting hX).2
      hNone).2.2 ?_).1 "q.X" hImport
    rw [hScopes.2.1]
    simpa using hNot "p.L"
  · have hMeans := (((simple_names_shadow hFiles hPlain hX).2
      hNone).2.2 ?_).2 hNoImport
    · rw [hPackage] at hMeans
      exact hMeans hTop
    · rw [hScopes.2.2]
      simpa using hNot "p.K"
  · exact (simple_names_shadow hFiles hPlain hZ).1 hDefault

/- A class outside of all packages, and one in a package. -/
def inDefault : List FileSummary := [
  classesIn none [] [(none, "X")],
  classesIn (some "p") [] [(none, "M"), (none, "X")]]

/- A class, and a package that is named like it. -/
def packageLikeClass : List FileSummary := [
  classesIn (some "p") ["q.B"] [(none, "A")],
  classesIn (some "p.A") [] [(none, "B")]]

/-
  What other packages declare can count. A class of the default
  package comes before the class of the own package, and a class
  of a package that is named like a type around the name comes
  before an import.
-/
theorem other_packages_capture :
    ((∀ f ∈ inDefault, f.TypesNamed) ∧
      (ofFiles inDefault).scopes (some "p.M") = ["p.M"] ∧
      ¬HasMember inDefault "p.M" "X" ∧
      (∀ f ∈ inDefault, f.imports = []) ∧
      TopLevel inDefault "p" "X" ∧
      (ofFiles inDefault).resolve "X" (some "p.M") =
        some "X") ∧
    ((∀ f ∈ packageLikeClass, f.TypesNamed) ∧
      (ofFiles packageLikeClass).scopes (some "p.A") =
        ["p.A"] ∧
      ¬HasMember packageLikeClass "p.A" "B" ∧
      (∀ f ∈ packageLikeClass, ∀ t ∈ f.types,
        t.fqn = "p.A" → lastImport? f "B" = some "q.B") ∧
      (ofFiles packageLikeClass).resolve "B" (some "p.A") =
        some "p.A.B") := by
  have hB : IsSimple "B" :=
    ⟨by decide, by decide, by decide⟩
  have hNot :
      (ofFiles packageLikeClass).declares "B" = false := by
    decide +kernel
  refine ⟨by decide +kernel, by decide +kernel, ?_⟩
  rw [resolve_eq_simple? hB hNot]
  decide +kernel

end Names

end Uncaught
