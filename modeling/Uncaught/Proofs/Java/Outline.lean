import Uncaught.Java.Outline
import Uncaught.Proofs.Resolve.Totality

/-
  What the summary of every compilation unit is like: nothing is
  missing, all parts belong to types and methods of the same
  summary, and types are named after the types around them.

  Key definitions include:
    * `TypeSummary.StandsIn`
    * `TypesNest`
    * `FileSummary.Outlined`
    * `Java.Describes`
    * `Java.Outline.FitsIn`

  Main declarations:
    * `Java.statementsAt_spec`
    * `Java.fitsIn_methodOutline`
    * `Java.fitsIn_memberOutline`
    * `Java.outlined_of_summary`
-/

namespace Uncaught

------------------------------------------------------------
-- Outlined Summaries
------------------------------------------------------------

/-
  A type stands in no other type, or in one of the given types,
  and then has the name of that type, if it has one, before its
  own.
-/
def TypeSummary.StandsIn
    (t : TypeSummary)
    (outers : List TypeSummary) : Prop :=
  t.outer = none ∨
    ∃ u ∈ outers, ∃ name, t.outer = some u.fqn ∧
      t.name = some name ∧
        (u.fqn ≠ "" → t.fqn = u.fqn ++ "." ++ name)

/-
  Each type of a list stands in no other type, or in one that
  comes before it.
-/
def TypesNest
    (earlier : List TypeSummary) : List TypeSummary → Prop
  | [] => True
  | t :: rest =>
      t.StandsIn earlier ∧ TypesNest (t :: earlier) rest

/-
  A summary in which nothing is missing and all belongs
  together: statements to its methods, methods and fields to its
  types, and types to types before them. Only a type with an
  empty name can have an empty qualified name.
-/
structure FileSummary.Outlined
    (f : FileSummary) : Prop where
  complete : f.isComplete = true
  types : TypesNest [] f.types
  named : ∀ t ∈ f.types, t.fqn = "" → t.name = some ""
  methods :
    ∀ m ∈ f.methods.getD [],
      ∃ t ∈ f.types, m.owner = some t.fqn
  fields :
    ∀ d ∈ f.fields, ∃ t ∈ f.types, d.owner = some t.fqn
  statements :
    ∀ s ∈ f.statements.getD [],
      ∃ m ∈ f.methods.getD [], ∃ text,
        m.sig = some text ∧ s.owner = some text

theorem TypesNest.mono
    {earlier more types : List TypeSummary}
    (hSubset : ∀ t ∈ earlier, t ∈ more)
    (hNest : TypesNest earlier types) :
    TypesNest more types := by
  induction types generalizing earlier more with
  | nil => trivial
  | cons t rest ih =>
      refine ⟨?_, ih ?_ hNest.2⟩
      · rcases hNest.1 with hNone | ⟨u, hu, hName⟩
        · exact .inl hNone
        · exact .inr ⟨u, hSubset u hu, hName⟩
      · intro u hu
        rcases List.mem_cons.mp hu with rfl | hu
        · exact List.mem_cons_self
        · exact List.mem_cons_of_mem _ (hSubset u hu)

theorem TypesNest.append
    {earlier first second : List TypeSummary}
    (hFirst : TypesNest earlier first)
    (hSecond : TypesNest earlier second) :
    TypesNest earlier (first ++ second) := by
  induction first generalizing earlier with
  | nil => exact hSecond
  | cons t rest ih =>
      refine ⟨hFirst.1, ih hFirst.2 (hSecond.mono ?_)⟩
      intro u hu
      exact List.mem_cons_of_mem _ hu

/- A type is longer in name than the type that it stands in. -/
theorem TypesNest.length_outer_lt
    {earlier types : List TypeSummary}
    (hNest : TypesNest earlier types)
    {t : TypeSummary}
    (hMem : t ∈ types)
    (hName : t.fqn ≠ "")
    {outer : String}
    (hOuter : t.outer = some outer) :
    outer.length < t.fqn.length := by
  induction types generalizing earlier with
  | nil => simp at hMem
  | cons first rest ih =>
      rcases List.mem_cons.mp hMem with rfl | hRest
      · rcases hNest.1 with hNone | ⟨u, -, name, hSame, -, hFull⟩
        · rw [hOuter] at hNone
          cases hNone
        · rw [hOuter] at hSame
          cases hSame
          by_cases hEmpty : u.fqn = ""
          · rw [hEmpty, String.length_empty]
            exact Nat.pos_of_ne_zero
              (mt String.length_eq_zero_iff.mp hName)
          · rw [hFull hEmpty, String.length_append,
              String.length_append]
            have hDot : ".".length = 1 := rfl
            omega
      · exact ih hNest.2 hRest

namespace Java

variable {src : Source} {package : Option String}

------------------------------------------------------------
-- Statements
------------------------------------------------------------

/- The kind of the statements that a node of this form has. -/
def Form.kind? : Form → Option StatementKind
  | .locals _ _ => some .declare
  | .loop _ _ => some .declare
  | .caught _ _ => some .declare
  | .creation _ _ => some .create
  | .construction _ _ => some .construct
  | .call _ _ _ => some .call
  | .throwing _ _ => some .throwing
  | _ => none

/- Whether a node of this form calls a method or constructor. -/
def Form.isCall : Form → Bool
  | .creation _ _ => true
  | .construction _ _ => true
  | .call _ _ _ => true
  | _ => false

/-
  The number of statements that a node of this form has: one
  for each variable, and one for any other site. The parameter
  of a catch clause counts if it has a type.
-/
def Form.entries : Form → Nat
  | .locals _ vars => vars.length
  | .caught types _ => min 1 types.length
  | form => if form.isSite then 1 else 0

/-
  What a statement of a site has: all parts of its kind, the
  place of the site, and, if the site is a call, the types
  caught around it.
-/
structure Describes
    (src : Source)
    (owner : String)
    (site : Site)
    (s : Statement) : Prop where
  isComplete : s.isComplete = true
  kind : s.kind = site.form.kind?
  owner : s.owner = some owner
  range : s.range = some ⟨site.span.start, site.span.stop⟩
  line : s.line = some (src.lineAt site.span.start)
  handlers :
    s.parts.bind Parts.handlers =
      if site.form.isCall then
        (typesAt src site.handlers).toOption
      else
        none

theorem describes_statementAt
    {owner : String}
    {site : Site}
    {kind : StatementKind}
    {parts : Parts}
    (hKind : site.form.kind? = some kind)
    (hParts : parts.isComplete kind = true)
    (hHandlers :
      parts.handlers =
        if site.form.isCall then
          (typesAt src site.handlers).toOption
        else
          none) :
    Describes src owner site
      (statementAt src owner site.span kind parts) where
  isComplete := by
    simp [statementAt, Statement.isComplete, hParts]
  kind := hKind.symm
  owner := rfl
  range := rfl
  line := rfl
  handlers := hHandlers

/- What the statements of a site are, and how many. -/
theorem statementsAt_spec
    {owner : String}
    {site : Site}
    {statements : List Statement}
    (hAt : statementsAt src owner site = .ok statements) :
    statements.length = site.form.entries ∧
      ∀ s ∈ statements, Describes src owner site s := by
  rcases site with ⟨form, span, handlers⟩
  unfold statementsAt at hAt
  cases form with
  | locals type vars =>
      simp only [bind_eq_ok_iff] at hAt
      rcases hAt with ⟨type, -, hVars⟩
      have hEach := forall₂_of_mapM_eq_ok hVars
      refine ⟨hEach.length_eq.symm, ?_⟩
      intro s hMem
      rcases exists_of_mem_right hEach hMem with ⟨v, -, hMade⟩
      simp only [bind_eq_ok_iff] at hMade
      rcases hMade with ⟨name, -, type, -, hMade⟩
      cases hMade
      exact describes_statementAt rfl rfl rfl
  | caught types name =>
      simp only [bind_eq_ok_iff] at hAt
      rcases hAt with ⟨texts, hTexts, name, -, hMade⟩
      cases hMade
      have hLength : types.length = texts.length :=
        (forall₂_of_mapM_eq_ok hTexts).length_eq
      constructor
      · rw [Form.entries, hLength]
        cases texts <;> simp
      · intro s hMem
        rcases List.mem_map.mp hMem with ⟨type, -, rfl⟩
        exact describes_statementAt rfl rfl rfl
  | loop type name =>
      simp only [bind_eq_ok_iff] at hAt
      rcases hAt with ⟨name, -, type, -, hMade⟩
      cases hMade
      refine ⟨rfl, ?_⟩
      intro s hMem
      rw [List.mem_singleton.mp hMem]
      exact describes_statementAt rfl rfl rfl
  | creation type arity =>
      simp only [bind_eq_ok_iff] at hAt
      rcases hAt with ⟨type, -, texts, hTexts, hMade⟩
      cases hMade
      refine ⟨rfl, ?_⟩
      intro s hMem
      rw [List.mem_singleton.mp hMem]
      exact describes_statementAt rfl rfl
        (toOption_eq_some_iff.mpr hTexts).symm
  | construction target arity =>
      simp only [bind_eq_ok_iff] at hAt
      rcases hAt with ⟨target, -, texts, hTexts, hMade⟩
      cases hMade
      refine ⟨rfl, ?_⟩
      intro s hMem
      rw [List.mem_singleton.mp hMem]
      exact describes_statementAt rfl rfl
        (toOption_eq_some_iff.mpr hTexts).symm
  | call receiver name arity =>
      simp only [bind_eq_ok_iff] at hAt
      rcases hAt with ⟨recv, -, name, -, texts, hTexts, hMade⟩
      cases hMade
      refine ⟨rfl, ?_⟩
      intro s hMem
      rw [List.mem_singleton.mp hMem]
      exact describes_statementAt rfl rfl
        (toOption_eq_some_iff.mpr hTexts).symm
  | throwing created named =>
      simp only [bind_eq_ok_iff] at hAt
      rcases hAt with ⟨type, -, var, -, hMade⟩
      cases hMade
      refine ⟨rfl, ?_⟩
      intro s hMem
      rw [List.mem_singleton.mp hMem]
      exact describes_statementAt rfl rfl rfl
  | trying | catching | finishing | lambda | nested =>
      cases hAt
      exact ⟨rfl, by simp⟩

------------------------------------------------------------
-- Outlines
------------------------------------------------------------

/-
  An outline in which all belongs together, given the types
  around it.
-/
structure Outline.FitsIn
    (o : Outline)
    (outers : List TypeSummary) : Prop where
  complete :
    ∀ t ∈ o.types, t.isComplete = true ∧
      (t.fqn = "" → t.name = some "")
  types : TypesNest outers o.types
  methods :
    ∀ m ∈ o.methods, m.isComplete = true ∧
      ∃ t ∈ outers ++ o.types, m.owner = some t.fqn
  fields :
    ∀ d ∈ o.fields, d.isComplete = true ∧
      ∃ t ∈ outers ++ o.types, d.owner = some t.fqn
  statements :
    ∀ s ∈ o.statements, s.isComplete = true ∧
      ∃ m ∈ o.methods, ∃ text,
        m.sig = some text ∧ s.owner = some text

namespace Outline.FitsIn

variable {o p : Outline} {outers : List TypeSummary}

theorem empty
    (outers : List TypeSummary) :
    ({} : Outline).FitsIn outers := by
  refine ⟨?_, trivial, ?_, ?_, ?_⟩ <;> simp

/- Two outlines that fit do so one after the other. -/
theorem append
    (hFirst : o.FitsIn outers)
    (hSecond : p.FitsIn outers) :
    (o ++ p).FitsIn outers := by
  have hLeft :
      ∀ t ∈ outers ++ o.types,
        t ∈ outers ++ (o.types ++ p.types) := by
    intro t ht
    rw [← List.append_assoc]
    exact List.mem_append_left _ ht
  have hRight :
      ∀ t ∈ outers ++ p.types,
        t ∈ outers ++ (o.types ++ p.types) := by
    intro t ht
    rcases List.mem_append.mp ht with hOuter | hOwn
    · exact List.mem_append_left _ hOuter
    · exact List.mem_append_right _
        (List.mem_append_right _ hOwn)
  refine
    { complete := ?_
      types := hFirst.types.append hSecond.types
      methods := ?_
      fields := ?_
      statements := ?_ }
  · intro t ht
    rcases List.mem_append.mp ht with ht | ht
    · exact hFirst.complete t ht
    · exact hSecond.complete t ht
  · intro m hm
    rcases List.mem_append.mp hm with hm | hm
    · rcases hFirst.methods m hm with ⟨hAll, t, ht, hOwner⟩
      exact ⟨hAll, t, hLeft t ht, hOwner⟩
    · rcases hSecond.methods m hm with ⟨hAll, t, ht, hOwner⟩
      exact ⟨hAll, t, hRight t ht, hOwner⟩
  · intro d hd
    rcases List.mem_append.mp hd with hd | hd
    · rcases hFirst.fields d hd with ⟨hAll, t, ht, hOwner⟩
      exact ⟨hAll, t, hLeft t ht, hOwner⟩
    · rcases hSecond.fields d hd with ⟨hAll, t, ht, hOwner⟩
      exact ⟨hAll, t, hRight t ht, hOwner⟩
  · intro s hs
    rcases List.mem_append.mp hs with hs | hs
    · rcases hFirst.statements s hs with ⟨hAll, m, hm, hText⟩
      exact ⟨hAll, m, List.mem_append_left _ hm, hText⟩
    · rcases hSecond.statements s hs with ⟨hAll, m, hm, hText⟩
      exact ⟨hAll, m, List.mem_append_right _ hm, hText⟩

/- A type fits with the members that fit in it. -/
theorem within
    {t : TypeSummary}
    (hComplete :
      t.isComplete = true ∧ (t.fqn = "" → t.name = some ""))
    (hStands : t.StandsIn outers)
    (hMembers : o.FitsIn (t :: outers)) :
    (o.within t).FitsIn outers := by
  have hOwner :
      ∀ u ∈ t :: outers ++ o.types,
        u ∈ outers ++ (o.within t).types := by
    intro u hu
    simp only [Outline.within, List.cons_append, List.mem_cons,
      List.mem_append] at hu ⊢
    tauto
  refine
    { complete := ?_
      types := ⟨hStands, hMembers.types⟩
      methods := ?_
      fields := ?_
      statements := hMembers.statements }
  · intro u hu
    rcases List.mem_cons.mp hu with rfl | hu
    · exact hComplete
    · exact hMembers.complete u hu
  · intro m hm
    rcases hMembers.methods m hm with ⟨hAll, u, hu, hName⟩
    exact ⟨hAll, u, hOwner u hu, hName⟩
  · intro d hd
    rcases hMembers.fields d hd with ⟨hAll, u, hu, hName⟩
    exact ⟨hAll, u, hOwner u hu, hName⟩

end Outline.FitsIn

------------------------------------------------------------
-- Members
------------------------------------------------------------

/- A method has its parameters, then what its body does. -/
theorem fitsIn_methodOutline
    {owner : String}
    {m : MethodTree}
    {o : Outline}
    (hOutline : methodOutline src owner m = .ok o)
    {outers : List TypeSummary}
    (hOwner : ∃ u ∈ outers, u.fqn = owner) :
    o.FitsIn outers := by
  simp only [methodOutline, bind_eq_ok_iff] at hOutline
  rcases hOutline with
    ⟨name, -, params, -, names, -, throws, -, sites, hSites,
      hMade⟩
  cases hMade
  refine ⟨by simp, trivial, ?_, by simp, ?_⟩
  · intro method hMem
    rw [List.mem_singleton.mp hMem]
    rcases hOwner with ⟨u, hu, hName⟩
    exact ⟨rfl, u, List.mem_append_left _ hu, by rw [hName]⟩
  · intro s hMem
    have hStatement :
        s.isComplete = true ∧
          s.owner = some (methodKey owner name params) := by
      rcases List.mem_append.mp hMem with hParam | hSite
      · rw [← List.map_uncurry_zip_eq_zipWith] at hParam
        rcases List.mem_map.mp hParam with ⟨declared, -, rfl⟩
        exact ⟨rfl, rfl⟩
      · rcases List.mem_flatten.mp hSite with
          ⟨statements, hFound, hMem⟩
        rcases exists_of_mem_right
            (forall₂_of_mapM_eq_ok hSites) hFound with
          ⟨site, -, hAt⟩
        have hDescribes := (statementsAt_spec hAt).2 s hMem
        exact ⟨hDescribes.isComplete, hDescribes.owner⟩
    exact ⟨hStatement.1, _, List.mem_singleton.mpr rfl, _, rfl,
      hStatement.2⟩

theorem qualifiedName_some
    {outer name : String}
    (hOuter : outer ≠ "") :
    qualifiedName package (some outer) name =
      outer ++ "." ++ name := by
  have hKeep :
      (some outer).filter (!·.isEmpty) = some outer := by
    simp [Option.filter_eq_some_iff, hOuter]
  rw [qualifiedName, hKeep]
  rfl

/- Only an empty name can be empty when it is qualified. -/
theorem eq_empty_of_qualifiedName
    {outer : Option String}
    {name : String}
    (hEmpty : qualifiedName package outer name = "") :
    name = "" := by
  unfold qualifiedName at hEmpty
  split at hEmpty
  · have hLength := congrArg String.length hEmpty
    have hDot : ".".length = 1 := rfl
    simp only [String.length_append, String.length_empty]
      at hLength
    omega
  · exact hEmpty

/- The summary of a type in another type is named after it. -/
theorem standsIn_typeSummary
    {owner : String}
    {head : TypeHead}
    {t : TypeSummary}
    (hSummary :
      typeSummary src package (some owner) head = .ok t)
    {outers : List TypeSummary}
    (hOwner : ∃ u ∈ outers, u.fqn = owner) :
    t.StandsIn outers := by
  simp only [typeSummary, bind_eq_ok_iff] at hSummary
  rcases hSummary with ⟨name, -, extended, -, implemented, -, hMade⟩
  cases hMade
  rcases hOwner with ⟨u, hu, rfl⟩
  exact .inr ⟨u, hu, name, rfl, rfl, qualifiedName_some⟩

theorem isComplete_typeSummary
    {outer : Option String}
    {head : TypeHead}
    {t : TypeSummary}
    (hSummary : typeSummary src package outer head = .ok t) :
    (t.isComplete = true ∧ (t.fqn = "" → t.name = some "")) ∧
      t.outer = outer := by
  simp only [typeSummary, bind_eq_ok_iff] at hSummary
  rcases hSummary with ⟨name, -, extended, -, implemented, -, hMade⟩
  cases hMade
  refine ⟨⟨rfl, ?_⟩, rfl⟩
  intro hEmpty
  rw [eq_empty_of_qualifiedName hEmpty]

mutual

/- What a member adds fits in the types around it. -/
theorem fitsIn_memberOutline
    {owner : String}
    {m : Member}
    {o : Outline}
    (hOutline : memberOutline src package owner m = .ok o)
    {outers : List TypeSummary}
    (hOwner : ∃ u ∈ outers, u.fqn = owner) :
    o.FitsIn outers := by
  cases m with
  | method m =>
      rw [memberOutline] at hOutline
      exact fitsIn_methodOutline hOutline hOwner
  | fields type names =>
      simp only [memberOutline, bind_eq_ok_iff] at hOutline
      rcases hOutline with ⟨type, -, names, -, hMade⟩
      cases hMade
      refine ⟨by simp, trivial, by simp, ?_, by simp⟩
      intro d hd
      rcases List.mem_map.mp hd with ⟨name, -, rfl⟩
      rcases hOwner with ⟨u, hu, hName⟩
      exact ⟨rfl, u, List.mem_append_left _ hu,
        by rw [fieldSummary, hName]⟩
  | type head members =>
      simp only [memberOutline, bind_eq_ok_iff] at hOutline
      rcases hOutline with ⟨t, hSummary, inner, hInner, hMade⟩
      cases hMade
      exact .within (isComplete_typeSummary hSummary).1
        (standsIn_typeSummary hSummary hOwner)
        (fitsIn_membersOutline hInner
          ⟨t, List.mem_cons_self, rfl⟩)

theorem fitsIn_membersOutline
    {owner : String}
    {members : List Member}
    {o : Outline}
    (hOutline : membersOutline src package owner members = .ok o)
    {outers : List TypeSummary}
    (hOwner : ∃ u ∈ outers, u.fqn = owner) :
    o.FitsIn outers := by
  cases members with
  | nil =>
      rw [membersOutline] at hOutline
      cases hOutline
      exact .empty outers
  | cons m rest =>
      simp only [membersOutline, bind_eq_ok_iff] at hOutline
      rcases hOutline with ⟨first, hFirst, others, hOthers, hMade⟩
      cases hMade
      exact .append (fitsIn_memberOutline hFirst hOwner)
        (fitsIn_membersOutline hOthers hOwner)

end

------------------------------------------------------------
-- Units
------------------------------------------------------------

theorem fitsIn_typeOutline
    {t : TypeTree}
    {o : Outline}
    (hOutline : typeOutline src package t = .ok o) :
    o.FitsIn [] := by
  simp only [typeOutline, bind_eq_ok_iff] at hOutline
  rcases hOutline with ⟨summary, hSummary, inner, hInner, hMade⟩
  cases hMade
  rcases isComplete_typeSummary hSummary with ⟨hAll, hOuter⟩
  exact .within hAll (.inl hOuter)
    (fitsIn_membersOutline hInner
      ⟨summary, List.mem_cons_self, rfl⟩)

theorem fitsIn_foldr
    {outlines : List Outline}
    {outers : List TypeSummary}
    (hOutlines : ∀ o ∈ outlines, o.FitsIn outers) :
    (outlines.foldr (· ++ ·) ({} : Outline)).FitsIn outers := by
  induction outlines with
  | nil => exact .empty outers
  | cons o rest ih =>
      refine .append (hOutlines o List.mem_cons_self) (ih ?_)
      intro p hp
      exact hOutlines p (List.mem_cons_of_mem _ hp)

/- The summary of each unit is outlined. -/
theorem outlined_of_summary
    {path : String}
    {unit : CompilationUnit}
    {f : FileSummary}
    (hSummary : unit.summary src path = .ok f) :
    f.Outlined := by
  simp only [CompilationUnit.summary, bind_eq_ok_iff] at hSummary
  rcases hSummary with
    ⟨package, -, imports, -, outlines, hOutlines, hMade⟩
  cases hMade
  have hFits :
      (outlines.foldr (· ++ ·) ({} : Outline)).FitsIn [] := by
    apply fitsIn_foldr
    intro o ho
    rcases exists_of_mem_right
        (forall₂_of_mapM_eq_ok hOutlines) ho with
      ⟨t, -, hType⟩
    exact fitsIn_typeOutline hType
  refine
    { complete := ?_
      types := hFits.types
      named := fun t ht => (hFits.complete t ht).2
      methods := fun m hm => (hFits.methods m hm).2
      fields := fun d hd => (hFits.fields d hd).2
      statements := fun s hs => (hFits.statements s hs).2 }
  rw [FileSummary.isComplete_iff]
  exact ⟨fun t ht => (hFits.complete t ht).1,
    fun d hd => (hFits.fields d hd).1,
    ⟨_, rfl, fun m hm => (hFits.methods m hm).1⟩,
    ⟨_, rfl, fun s hs => (hFits.statements s hs).1⟩⟩

/- The summary of a source is that of the unit it is read as. -/
theorem exists_unit_of_summary
    {path : String}
    {f : FileSummary}
    (hSummary : src.summary path = .ok f) :
    ∃ unit : CompilationUnit, unit.summary src path = .ok f := by
  unfold Source.summary at hSummary
  cases hUnit : src.parse with
  | none => simp [hUnit] at hSummary
  | some unit =>
      rw [hUnit] at hSummary
      exact ⟨unit, mapError_eq_ok_iff.mp hSummary⟩

end Java

end Uncaught
