import Uncaught.Proofs.Resolve.CallSites

/-
  Throws of variables. A body knows one type for each name, that
  of the last declaration of the name, wherever it stands. So a
  throw of a variable adds the type of the variable if no
  declaration of its name that comes after the throw has another
  type, and else the type of the last one of these.

  Key definitions include:
    * `Statement.startsBy`
    * `Resolution.Rethrow`
    * `Resolution.Rethrow.laterTypes`

  Main declarations:
    * `Frame.get?_locals_of_ofBody`
    * `Frame.pairwise_startsBy_of_ordered`
    * `Resolution.Resolves.exists_effect_of_has`
    * `Resolution.rethrow_adds_last_type`
    * `Resolution.rethrow_loses_own_type`
-/

namespace Uncaught

------------------------------------------------------------
-- Places
------------------------------------------------------------

/- Whether a statement starts at a place or before it. -/
def Statement.startsBy
    (place : Int)
    (s : Statement) : Bool :=
  s.range.any fun range => decide (range.start ≤ place)

namespace Frame

variable {symbols : Symbols} {owner : String}
variable {statements placed : List Statement}

/- In order, what starts by a place comes before the rest. -/
theorem pairwise_startsBy_of_ordered
    (hOrdered : ordered statements = .ok placed)
    (place : Int) :
    placed.Pairwise fun a b =>
      b.startsBy place = true → a.startsBy place = true := by
  rcases bind_eq_ok_iff.mp hOrdered with
    ⟨pairs, hPairs, hPlaced⟩
  cases hPlaced
  have hPlace :
      ∀ pair ∈ pairs,
        pair.2.startsBy place = decide (pair.1 ≤ place) := by
    intro pair hMem
    rcases exists_of_mem_right (forall₂_of_mapM_eq_ok hPairs)
        hMem with
      ⟨s, -, hPair⟩
    simp only [bind_eq_ok_iff, need_eq_ok_iff] at hPair
    rcases hPair with ⟨range, hRange, hPair⟩
    cases hPair
    simp [Statement.startsBy, hRange]
  have hSorted :
      (pairs.mergeSort fun a b => decide (a.1 ≤ b.1)).Pairwise
        fun a b => decide (a.1 ≤ b.1) = true := by
    apply List.pairwise_mergeSort
    · intro a b c
      simpa using Int.le_trans
    · intro a b
      simpa using Int.le_total a.1 b.1
  rw [List.pairwise_map]
  apply (List.Pairwise.and_mem.mp hSorted).imp
  rintro a b ⟨ha, hb, hOrder⟩
  rw [hPlace a (List.mem_mergeSort.mp ha),
    hPlace b (List.mem_mergeSort.mp hb), decide_eq_true_eq,
    decide_eq_true_eq]
  exact Int.le_trans (of_decide_eq_true hOrder)

------------------------------------------------------------
-- Variables
------------------------------------------------------------

/-
  The type of a name in a body is that of its last declaration
  with a known type.
-/
theorem get?_locals_of_ofBody
    {frame : Frame}
    (hFrame : ofBody symbols owner statements = .ok frame)
    (hOrdered : ordered statements = .ok placed)
    (name : String) :
    frame.locals.get? name =
      ((placed.filter (·.declaresName name)).filterMap
        (symbols.declaredType? owner)).getLast?.or
          ((start symbols owner).locals.get? name) := by
  rw [ofBody, hOrdered] at hFrame
  have hRun := foldlM_eq_foldl_of
    (P := fun f : Frame =>
      f.symbols = symbols ∧ f.owner = owner)
    (V := fun f : Frame => f.locals.get? name)
    (g := fun found s =>
      (if s.declaresName name then
        symbols.declaredType? owner s
      else
        none).or found)
    ⟨rfl, rfl⟩ ?_ hFrame
  · rw [hRun, foldl_or_eq, List.filterMap_filter]
  · rintro f s - after ⟨rfl, rfl⟩ hDeclare
    rcases declare_spec hDeclare with
      ⟨hSymbols, hOwner, hLocals⟩
    exact ⟨⟨hSymbols, hOwner⟩, hLocals name⟩

/- A throw of a variable throws the type of its name. -/
theorem effect_of_variable
    {frame : Frame}
    {s : Statement}
    {parts : Parts}
    {written : Option String}
    {name type : String}
    (hKind : s.kind = some .throwing)
    (hParts : s.parts = some parts)
    (hWritten : parts.type = some written)
    (hNoClass : written.getD "" = "")
    (hVar : parts.var = some (some name))
    (hName : name ≠ "")
    (hLocal : frame.locals.get? name = some type)
    (hType : type ≠ "") :
    frame.effect s = .ok (.thrown type) := by
  have hNone : written.filter (!·.isEmpty) = none := by
    cases written with
    | none => rfl
    | some w =>
        rw [Option.getD_some] at hNoClass
        rw [hNoClass]
        rfl
  have hThrown : frame.thrown? parts = .ok (some type) := by
    simp only [thrown?, hWritten, hVar, need_some, bind,
      Except.bind, hNone]
    simp [Option.filter, hName, hLocal, hType, pure,
      Except.pure]
  simp only [effect, hKind, hParts, need_some, bind, Except.bind,
    hThrown]
  rfl

end Frame

------------------------------------------------------------
-- Bodies
------------------------------------------------------------

namespace Resolution

variable {files : List FileSummary} {r : Resolution}
variable {bodies : List (Signature × List Effect)}

/- What the facts of a method have comes from a statement. -/
theorem Resolves.exists_effect_of_has
    (hResolves : Resolves files bodies r)
    {method : Signature}
    {facts : MethodFacts}
    (hFacts : r.facts.get? method = some facts)
    (mark : Mark)
    (hHas : facts.Has mark) :
    ∃ f ∈ files, ∃ text,
      r.symbols.signatures.get? text = some method ∧
      ∃ frame,
        Frame.ofBody r.symbols method.owner
          (statementsOf f text) = .ok frame ∧
        ∃ s ∈ statementsOf f text, ∃ e,
          frame.effect s = .ok e ∧ e.Makes mark := by
  rcases (hResolves.has_iff method mark).mp
      ⟨facts, hFacts, hHas⟩ with
    ⟨body, hBody, rfl, e, hEffect, hMakes⟩
  rcases hResolves.exists_of_mem hBody with
    ⟨f, hFile, text, hOf⟩
  simp only [bodyOf, bind_eq_ok_iff, need_eq_ok_iff] at hOf
  rcases hOf with ⟨sig, hSig, es, hEffects, hPair⟩
  cases hPair
  rcases bind_eq_ok_iff.mp hEffects with
    ⟨frame, hFrame, hEffects⟩
  rcases bind_eq_ok_iff.mp hEffects with
    ⟨placed, hPlaced, hEffects⟩
  rcases exists_of_mem_right (forall₂_of_mapM_eq_ok hEffects)
      hEffect with
    ⟨s, hMem, hStatement⟩
  exact ⟨f, hFile, text, hSig, frame, hFrame, s,
    (Frame.perm_of_ordered hPlaced).mem_iff.mp hMem, e,
    hStatement, hMakes⟩

/-
  A throw of a variable in a method of the project. The last
  declaration of the name that starts at the throw or before it
  has a type that is known.
-/
structure Rethrow
    (files : List FileSummary)
    (r : Resolution) where
  file : FileSummary
  text : String
  statement : Statement
  parts : Parts
  written : Option String
  name : String
  range : ByteRange
  method : Signature
  placed : List Statement
  binding : Statement
  type : String
  file_mem : file ∈ files
  statement_mem : statement ∈ statementsOf file text
  kind_eq : statement.kind = some .throwing
  parts_eq : statement.parts = some parts
  written_eq : parts.type = some written
  no_class : written.getD "" = ""
  name_eq : parts.var = some (some name)
  name_ne : name ≠ ""
  range_eq : statement.range = some range
  method_eq : r.symbols.signatures.get? text = some method
  placed_eq :
    Frame.ordered (statementsOf file text) = .ok placed
  binding_eq :
    ((placed.filter (·.declaresName name)).filter
      (·.startsBy range.start)).getLast? = some binding
  type_eq :
    r.symbols.declaredType? method.owner binding = some type

namespace Rethrow

variable (site : Rethrow files r)

/-
  The types of the declarations of the name that start after the
  throw, as far as they are known.
-/
def laterTypes : List String :=
  ((site.placed.filter (·.declaresName site.name)).filter
    (!·.startsBy site.range.start)).filterMap
      (r.symbols.declaredType? site.method.owner)

/- What the throw adds. -/
def lastType : String :=
  site.laterTypes.getLast?.getD site.type

/- The type of the name in the body. -/
theorem get?_locals
    {frame : Frame}
    (hFrame :
      Frame.ofBody r.symbols site.method.owner
        (statementsOf site.file site.text) = .ok frame) :
    frame.locals.get? site.name = some site.lastType := by
  have hSplit := filter_append_filter_not
    ((Frame.pairwise_startsBy_of_ordered site.placed_eq
      site.range.start).filter (·.declaresName site.name))
  have hEarlier :
      (((site.placed.filter (·.declaresName site.name)).filter
        (·.startsBy site.range.start)).filterMap
          (r.symbols.declaredType? site.method.owner)).getLast? =
        some site.type := by
    rcases List.getLast?_eq_some_iff.mp site.binding_eq with
      ⟨before, hBefore⟩
    rw [hBefore, List.filterMap_append]
    simp [site.type_eq]
  rw [Frame.get?_locals_of_ofBody hFrame site.placed_eq,
    ← hSplit, List.filterMap_append, List.getLast?_append,
    hEarlier]
  change (site.laterTypes.getLast?.or (some site.type)).or _ = _
  rw [lastType]
  cases site.laterTypes.getLast? <;> rfl

theorem lastType_ne_empty :
    site.lastType ≠ "" := by
  have hKnown :
      ∀ owner s type,
        r.symbols.declaredType? owner s = some type →
          type ≠ "" := by
    intro owner s type hType
    rcases Option.bind_eq_some_iff.mp hType with
      ⟨written, -, hFound⟩
    exact Names.ne_empty_of_resolve? hFound
  unfold lastType
  cases hLast : site.laterTypes.getLast? with
  | none => exact hKnown _ _ _ site.type_eq
  | some type =>
      rcases List.mem_filterMap.mp
          (List.mem_of_getLast? hLast) with
        ⟨s, -, hType⟩
      exact hKnown _ _ _ hType

theorem lastType_eq
    (hSame : ∀ type ∈ site.laterTypes, type = site.type) :
    site.lastType = site.type := by
  unfold lastType
  cases hLast : site.laterTypes.getLast? with
  | none => rfl
  | some type => exact hSame type (List.mem_of_getLast? hLast)

/- What the throw does, and what the facts of its method have. -/
theorem exists_effect
    (hResolves : Resolves files bodies r) :
    ∃ frame facts,
      Frame.ofBody r.symbols site.method.owner
        (statementsOf site.file site.text) = .ok frame ∧
      r.facts.get? site.method = some facts ∧
      frame.effect site.statement =
        .ok (.thrown site.lastType) ∧
      site.lastType ∈ facts.thrown := by
  rcases hResolves.exists_body site.file_mem site.statement_mem
      site.method_eq with
    ⟨es, hEffects, -⟩
  rcases bind_eq_ok_iff.mp hEffects with ⟨frame, hFrame, -⟩
  have hEffect :
      frame.effect site.statement =
        .ok (.thrown site.lastType) :=
    Frame.effect_of_variable site.kind_eq site.parts_eq
      site.written_eq site.no_class site.name_eq site.name_ne
      (site.get?_locals hFrame) site.lastType_ne_empty
  have hMakes :
      ∀ e, frame.effect site.statement = .ok e →
        e.Makes (.throws site.lastType) := by
    intro e he
    rw [hEffect] at he
    cases he
    rfl
  rcases hResolves.exists_facts_of_effect site.file_mem
      site.statement_mem site.method_eq hFrame _ hMakes with
    ⟨facts, hFacts, hThrown⟩
  exact ⟨frame, facts, hFrame, hFacts, hEffect, hThrown⟩

end Rethrow

------------------------------------------------------------
-- Rethrown Types
------------------------------------------------------------

/-
  A throw of a variable adds one type to the method: that of the
  last declaration of the name after the throw, and the type of
  the variable itself if there is none. So the type of the
  variable is added if no later declaration of its name has
  another type.
-/
theorem rethrow_adds_last_type
    (hResolved : Resolution.ofFiles files = .ok r)
    (site : Rethrow files r) :
    ∃ frame facts,
      Frame.ofBody r.symbols site.method.owner
        (statementsOf site.file site.text) = .ok frame ∧
      r.facts.get? site.method = some facts ∧
      frame.effect site.statement =
        .ok (.thrown (site.laterTypes.getLast?.getD
          site.type)) ∧
      site.laterTypes.getLast?.getD site.type ∈ facts.thrown ∧
      ((∀ type ∈ site.laterTypes, type = site.type) →
        site.type ∈ facts.thrown) := by
  rcases ofFiles_eq_ok_iff.mp hResolved with
    ⟨bodies, hResolves⟩
  rcases site.exists_effect hResolves with
    ⟨frame, facts, hFrame, hFacts, hEffect, hThrown⟩
  refine ⟨frame, facts, hFrame, hFacts, hEffect, hThrown, ?_⟩
  intro hSame
  rw [← site.lastType_eq hSame]
  exact hThrown

/- A handler for a class with the variable `e`. -/
def handlerFor
    (type : String)
    (place : Int) : Statement :=
  { kind := some .declare
    owner := some "M#g()"
    parts := some {
      type := some (some type)
      name := some "e" }
    range := some ⟨place, place + 1⟩ }

/- A throw of the variable `e`. -/
def throwAt
    (place : Int) : Statement :=
  { kind := some .throwing
    owner := some "M#g()"
    parts := some {
      type := some none
      var := some (some "e") }
    range := some ⟨place, place + 1⟩ }

/-
  Two handlers that throw what they caught, both with the same
  name for it.
-/
def handlersBody : List Statement :=
  [handlerFor "A" 0, throwAt 2, handlerFor "B" 4, throwAt 6]

/- A method with the two handlers. -/
def handlersFile : FileSummary :=
  { path := "M.java"
    types := [
      { fqn := "A"
        extended := some []
        implemented := some [] },
      { fqn := "B"
        extended := some []
        implemented := some [] },
      { fqn := "M"
        extended := some []
        implemented := some [] }]
    methods := some [
      { owner := some "M"
        name := some "g"
        sig := some "M#g()"
        params := some []
        throws := some []
        isConstructor := some false }]
    statements := some handlersBody }

namespace handlersFile

variable {symbols : Symbols}

theorem exists_resolves :
    ∃ r bodies, Resolution.ofFiles [handlersFile] = .ok r ∧
      Resolves [handlersFile] bodies r :=
  exists_resolves_of_complete (by decide) (by decide)

theorem ordered_eq :
    Frame.ordered (statementsOf handlersFile "M#g()") =
      .ok handlersBody := by
  have hBody :
      statementsOf handlersFile "M#g()" = handlersBody := by
    decide
  rw [hBody]
  change Except.ok ((List.mergeSort
    [(0, _), (2, _), (4, _), (6, _)] _).map Prod.snd) = _
  rw [List.mergeSort_of_pairwise (by simp)]
  rfl

/- Both handlers are for classes of the project. -/
theorem declaredType?_eq
    (hSymbols : Symbols.ofFiles [handlersFile] = .ok symbols)
    (place : Int) :
    symbols.declaredType? "M" (handlerFor "A" place) =
        some "A" ∧
      symbols.declaredType? "M" (handlerFor "B" place) =
        some "B" := by
  constructor
  all_goals
    change symbols.names.resolve? _ _ = _
    rw [Symbols.names_of_ofFiles hSymbols]
    exact Names.resolve?_of_declares rfl (by decide)
      (by decide) _

/- The throw of the first handler. -/
def site
    {r : Resolution}
    (hSymbols : Symbols.ofFiles [handlersFile] = .ok r.symbols) :
    Rethrow [handlersFile] r where
  file := handlersFile
  text := "M#g()"
  statement := throwAt 2
  parts := {
    type := some none
    var := some (some "e") }
  written := none
  name := "e"
  range := ⟨2, 3⟩
  method := { owner := "M", name := "g" }
  placed := handlersBody
  binding := handlerFor "A" 0
  type := "A"
  file_mem := List.mem_singleton.mpr rfl
  statement_mem := by decide
  kind_eq := rfl
  parts_eq := rfl
  written_eq := rfl
  no_class := rfl
  name_eq := rfl
  name_ne := by decide
  range_eq := rfl
  method_eq := by
    rw [Symbols.signatures_of_ofFiles hSymbols,
      Symbols.names_of_ofFiles hSymbols]
    rfl
  placed_eq := ordered_eq
  binding_eq := by decide
  type_eq := (declaredType?_eq hSymbols 0).1

/- The handler after the throw is for the other class. -/
theorem laterTypes_site
    {r : Resolution}
    (hSymbols : Symbols.ofFiles [handlersFile] = .ok r.symbols) :
    (site hSymbols).laterTypes = ["B"] := by
  have hLater :
      (handlersBody.filter (·.declaresName "e")).filter
        (!·.startsBy 2) = [handlerFor "B" 4] := by
    decide
  change ((handlersBody.filter (·.declaresName "e")).filter
    (!·.startsBy 2)).filterMap (r.symbols.declaredType? "M") = _
  rw [hLater]
  simp [(declaredType?_eq hSymbols 4).2]

/- All that the sample throws is of the second class. -/
theorem eq_of_thrown
    (hResolves : Resolves [handlersFile] bodies r)
    {facts : MethodFacts}
    (hFacts :
      r.facts.get? { owner := "M", name := "g" } = some facts)
    {exc : String}
    (hThrown : exc ∈ facts.thrown) :
    exc = "B" := by
  rcases hResolves.exists_effect_of_has hFacts (.throws exc)
      hThrown with
    ⟨f, hFile, text, -, frame, hFrame, s, hMem, e, hEffect,
      hMakes⟩
  rw [List.mem_singleton.mp hFile] at hFrame hMem
  rcases List.mem_filter.mp hMem with ⟨hStatement, hOwner⟩
  have hCases :
      (∃ type place, s = handlerFor type place) ∨
        ∃ place, s = throwAt place := by
    change s ∈ handlersBody at hStatement
    simp only [handlersBody, List.mem_cons, List.not_mem_nil,
      or_false] at hStatement
    rcases hStatement with hFirst | hSecond | hThird | hFourth
    · exact .inl ⟨_, _, hFirst⟩
    · exact .inr ⟨_, hSecond⟩
    · exact .inl ⟨_, _, hThird⟩
    · exact .inr ⟨_, hFourth⟩
  have hText : text = "M#g()" := by
    have hSame : s.owner = some "M#g()" := by
      rcases hCases with ⟨type, place, rfl⟩ | ⟨place, rfl⟩ <;> rfl
    rw [hSame] at hOwner
    exact (Option.some.inj (of_decide_eq_true hOwner)).symm
  subst hText
  have hLocal : frame.locals.get? "e" = some "B" := by
    have hFound :=
      (site hResolves.symbols_eq).get?_locals hFrame
    rwa [Rethrow.lastType, laterTypes_site] at hFound
  rcases hCases with ⟨type, place, rfl⟩ | ⟨place, rfl⟩
  · cases hEffect
    exact hMakes.elim
  · have hSecond :
        frame.effect (throwAt place) = .ok (.thrown "B") :=
      Frame.effect_of_variable rfl rfl rfl rfl rfl (by decide)
        hLocal (by decide)
    rw [hSecond] at hEffect
    cases hEffect
    exact hMakes.symm

end handlersFile

/- The throw of the first handler adds the second class. -/
theorem rethrow_adds_last_type_handlersFile :
    ∃ r facts,
      Resolution.ofFiles [handlersFile] = .ok r ∧
      r.facts.get? { owner := "M", name := "g" } = some facts ∧
      "B" ∈ facts.thrown := by
  rcases handlersFile.exists_resolves with
    ⟨r, bodies, hResolved, hResolves⟩
  have hSymbols := hResolves.symbols_eq
  rcases rethrow_adds_last_type hResolved
      (handlersFile.site hSymbols) with
    ⟨frame, facts, -, hFacts, -, hThrown, -⟩
  rw [handlersFile.laterTypes_site hSymbols] at hThrown
  exact ⟨r, facts, hResolved, hFacts, hThrown⟩

/-
  The method has not the class of the first handler among what
  it throws.
-/
theorem rethrow_loses_own_type :
    ∃ r, Resolution.ofFiles [handlersFile] = .ok r ∧
      ∃ (site : Rethrow [handlersFile] r) (facts : MethodFacts),
        r.facts.get? site.method = some facts ∧
          site.type ∉ facts.thrown := by
  rcases handlersFile.exists_resolves with
    ⟨r, bodies, hResolved, hResolves⟩
  have hSymbols := hResolves.symbols_eq
  rcases (handlersFile.site hSymbols).exists_effect
      hResolves with
    ⟨frame, facts, -, hFacts, -⟩
  refine ⟨r, hResolved, handlersFile.site hSymbols, facts,
    hFacts, ?_⟩
  intro hOwn
  exact absurd (handlersFile.eq_of_thrown hResolves hFacts hOwn)
    (show "A" ≠ "B" by decide)

end Resolution

end Uncaught
