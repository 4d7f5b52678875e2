import Uncaught.Proofs.Resolve.Resolution

/-
  Summaries that are complete can be resolved: where no part is
  missing that a reader needs, and each statement belongs to a
  declared method, no step of the resolution fails.

  Key definitions include:
    * `TypeSummary.isComplete`
    * `MethodSummary.isComplete`
    * `FieldSummary.isComplete`
    * `Statement.isComplete`
    * `FileSummary.isComplete`
    * `FileSummary.methodTexts`

  Main declarations:
    * `Links.succeeds_ofFiles`
    * `Symbols.succeeds_ofFiles`
    * `Frame.succeeds_effects`
    * `Resolution.succeeds_ofFiles`
    * `Resolution.exists_resolves_of_complete`
-/

namespace Uncaught

------------------------------------------------------------
-- Complete Summaries
------------------------------------------------------------

/- The head of a type is there. -/
def TypeSummary.isComplete
    (t : TypeSummary) : Bool :=
  t.extended.isSome && t.implemented.isSome

/- All of a method is there, its lines apart. -/
def MethodSummary.isComplete
    (m : MethodSummary) : Bool :=
  m.owner.isSome && m.name.isSome && m.sig.isSome
    && m.params.isSome && m.throws.isSome
    && m.isConstructor.isSome

/- All of a field is there. -/
def FieldSummary.isComplete
    (f : FieldSummary) : Bool :=
  f.owner.isSome && f.name.isSome && f.type.isSome

/- The parts are there that a kind of statement has. -/
def Parts.isComplete
    (p : Parts) : StatementKind → Bool
  | .declare => p.type.isSome && p.name.isSome
  | .create =>
      p.type.isSome && p.arity.isSome && p.handlers.isSome
  | .construct =>
      p.target.isSome && p.arity.isSome && p.handlers.isSome
  | .call =>
      p.recv.isSome && p.name.isSome && p.arity.isSome
        && p.handlers.isSome
  | .throwing => p.type.isSome && p.var.isSome

/- All of a statement is there, its line apart. -/
def Statement.isComplete
    (s : Statement) : Bool :=
  s.owner.isSome && s.range.isSome
    && s.kind.any fun kind => s.parts.any (·.isComplete kind)

/- All of a file is there. -/
def FileSummary.isComplete
    (f : FileSummary) : Bool :=
  f.types.all (·.isComplete)
    && f.fields.all (·.isComplete)
    && f.methods.any (·.all (·.isComplete))
    && f.statements.any (·.all (·.isComplete))

/- The texts of the methods of a file. -/
def FileSummary.methodTexts
    (f : FileSummary) : List String :=
  (f.methods.getD []).filterMap (·.sig)

theorem succeeds_need
    {α : Type}
    {x : Option α}
    (hSome : x.isSome = true)
    (key : String) :
    Succeeds (need key x) := by
  rcases Option.isSome_iff_exists.mp hSome with ⟨a, rfl⟩
  exact ⟨a, rfl⟩

theorem FileSummary.isComplete_iff
    (f : FileSummary) :
    f.isComplete = true ↔
      (∀ t ∈ f.types, t.isComplete = true) ∧
      (∀ d ∈ f.fields, d.isComplete = true) ∧
      (∃ methods, f.methods = some methods ∧
        ∀ m ∈ methods, m.isComplete = true) ∧
      (∃ statements, f.statements = some statements ∧
        ∀ s ∈ statements, s.isComplete = true) := by
  simp [isComplete, Option.any_eq_true, and_assoc]

variable {files : List FileSummary}

------------------------------------------------------------
-- Links
------------------------------------------------------------

namespace Links

theorem succeeds_addType
    (n : Names)
    (links : Links)
    (name : String)
    {t : TypeSummary}
    (hComplete : t.isComplete = true) :
    Succeeds (addType n links name t) := by
  rw [TypeSummary.isComplete, Bool.and_eq_true] at hComplete
  refine (succeeds_need hComplete.1 _).bind fun extended _ => ?_
  exact (succeeds_need hComplete.2 _).bind fun _ _ => ⟨_, rfl⟩

theorem succeeds_addField
    (n : Names)
    (links : Links)
    {f : FieldSummary}
    (hComplete : f.isComplete = true) :
    Succeeds (addField n links f) := by
  simp only [FieldSummary.isComplete, Bool.and_eq_true]
    at hComplete
  rcases hComplete with ⟨⟨hOwner, hName⟩, hType⟩
  refine (succeeds_need hType _).bind fun type _ => ?_
  refine (succeeds_need hOwner _).bind fun owner _ => ?_
  split
  · exact ⟨_, rfl⟩
  · exact (succeeds_need hName _).bind fun _ _ => ⟨_, rfl⟩

/- The links of complete files can be made. -/
theorem succeeds_ofFiles
    (hComplete : ∀ f ∈ files, f.isComplete = true) :
    Succeeds (ofFiles (.ofFiles files) files) := by
  have hFiles := fun f hf =>
    (FileSummary.isComplete_iff f).mp (hComplete f hf)
  refine Succeeds.bind ?_ fun links _ => ?_
  · refine Succeeds.foldlM ?_ _
    intro links e he
    have hType := (Table.get?_eq_some_iff _ e.1 e.2).mpr he
    rcases Names.exists_of_get?_ofFiles hType with
      ⟨f, hFile, hMem, -, -⟩
    exact succeeds_addType _ _ _ ((hFiles f hFile).1 _ hMem)
  · refine Succeeds.foldlM ?_ _
    intro links d hd
    rcases List.mem_flatMap.mp hd with ⟨f, hFile, hMem⟩
    exact succeeds_addField _ _ ((hFiles f hFile).2.1 d hMem)

end Links

------------------------------------------------------------
-- Symbols
------------------------------------------------------------

namespace Symbols

theorem exists_declaration?
    (n : Names)
    (package : Option String)
    {m : MethodSummary}
    (hComplete : m.isComplete = true) :
    ∃ e, declaration? n package m = some e := by
  simp only [MethodSummary.isComplete, Bool.and_eq_true,
    Option.isSome_iff_exists] at hComplete
  rcases hComplete with
    ⟨⟨⟨⟨⟨⟨owner, hOwner⟩, name, hName⟩, text, hText⟩, params,
      hParams⟩, throws, hThrows⟩, -⟩
  simp [declaration?, hOwner, hThrows, hName, hParams, hText]

/- The symbols of complete files can be made. -/
theorem succeeds_ofFiles
    (hComplete : ∀ f ∈ files, f.isComplete = true) :
    Succeeds (ofFiles files) := by
  refine (Links.succeeds_ofFiles hComplete).bind
    fun links _ => ?_
  refine Succeeds.foldlM ?_ _
  intro s f hFile
  rcases (f.isComplete_iff.mp (hComplete f hFile)).2.2.1 with
    ⟨methods, hMethods, hAll⟩
  rw [addFile, hMethods]
  refine Succeeds.foldlM ?_ s
  intro s m hMem
  rcases exists_declaration? s.names f.package (hAll m hMem) with
    ⟨e, hEntry⟩
  exact ⟨_, addMethod_eq_ok_iff.mpr ⟨e, hEntry, rfl⟩⟩

/- In complete files it is known what is a constructor. -/
theorem isSome_isConstructor
    {symbols : Symbols}
    (hSymbols : ofFiles files = .ok symbols)
    (hComplete : ∀ f ∈ files, f.isComplete = true)
    {owner : String}
    {d : DeclaredMethod}
    (hMem : d ∈ symbols.methodsOf owner) :
    d.isConstructor.isSome = true := by
  rcases ((mem_methodsOf_iff hSymbols owner d).mp hMem).2 with
    ⟨f, hFile, text, hDeclared⟩
  rcases (f.isComplete_iff.mp (hComplete f hFile)).2.2.1 with
    ⟨methods, hMethods, hAll⟩
  rw [declarations, hMethods] at hDeclared
  rcases List.mem_filterMap.mp hDeclared with
    ⟨m, hMethod, hEntry⟩
  have hSome := hAll m hMethod
  rw [MethodSummary.isComplete, Bool.and_eq_true] at hSome
  rw [(of_declaration? hEntry).2.2.2.2.2]
  exact hSome.2

/- Each text of a method stands for a signature. -/
theorem exists_signature
    {symbols : Symbols}
    (hSymbols : ofFiles files = .ok symbols)
    (hComplete : ∀ f ∈ files, f.isComplete = true)
    {f : FileSummary}
    (hFile : f ∈ files)
    {text : String}
    (hText : text ∈ f.methodTexts) :
    ∃ sig, symbols.signatures.get? text = some sig := by
  rcases (f.isComplete_iff.mp (hComplete f hFile)).2.2.1 with
    ⟨methods, hMethods, hAll⟩
  rw [FileSummary.methodTexts, hMethods] at hText
  rcases List.mem_filterMap.mp hText with ⟨m, hMem, hSig⟩
  rcases exists_declaration? symbols.names f.package
      (hAll m hMem) with
    ⟨e, hEntry⟩
  have hSame := (of_declaration? hEntry).1
  rw [hSig] at hSame
  cases hSame
  have hDeclared : e ∈ declarations symbols.names f := by
    rw [declarations, hMethods]
    exact List.mem_filterMap.mpr ⟨m, hMem, hEntry⟩
  rw [← Table.mem_keys_iff, signatures_of_ofFiles hSymbols,
    Table.mem_keys_ofList, List.map_map]
  exact List.mem_map.mpr
    ⟨e, List.mem_flatMap.mpr ⟨f, hFile, hDeclared⟩, rfl⟩

theorem succeeds_findConstructor
    {methods : List DeclaredMethod}
    (hKnown :
      ∀ d ∈ methods, d.isConstructor.isSome = true)
    (arity : Int) :
    Succeeds (findConstructor arity methods) := by
  induction methods with
  | nil => exact ⟨none, rfl⟩
  | cons d rest ih =>
      rw [findConstructor]
      refine (succeeds_need
        (hKnown d List.mem_cons_self) _).bind fun _ _ => ?_
      split
      · exact ⟨_, rfl⟩
      · exact ih fun d hd => hKnown d (List.mem_cons_of_mem _ hd)

theorem succeeds_constructor?
    {symbols : Symbols}
    (hKnown :
      ∀ owner, ∀ d ∈ symbols.methodsOf owner,
        d.isConstructor.isSome = true)
    (owner : String)
    (arity : Int) :
    Succeeds (symbols.constructor? owner arity) := by
  unfold constructor?
  split
  · exact (succeeds_findConstructor (hKnown owner) arity).bind
      fun _ _ => ⟨_, rfl⟩
  · exact ⟨_, rfl⟩

end Symbols

------------------------------------------------------------
-- Bodies
------------------------------------------------------------

namespace Frame

theorem exists_parts
    {s : Statement}
    (hComplete : s.isComplete = true) :
    ∃ kind parts, s.kind = some kind ∧ s.parts = some parts ∧
      parts.isComplete kind = true ∧ s.range.isSome = true := by
  simp only [Statement.isComplete, Bool.and_eq_true,
    Option.any_eq_true] at hComplete
  rcases hComplete with
    ⟨⟨-, hRange⟩, kind, hKind, parts, hParts, hAll⟩
  exact ⟨kind, parts, hKind, hParts, hAll, hRange⟩

theorem succeeds_declare
    (f : Frame)
    {s : Statement}
    (hComplete : s.isComplete = true) :
    Succeeds (f.declare s) := by
  rcases exists_parts hComplete with
    ⟨kind, parts, hKind, hParts, hAll, -⟩
  rw [declare, hKind]
  change Succeeds (if kind = .declare then _ else _)
  split
  · next hDeclare =>
      subst hDeclare
      rw [Parts.isComplete, Bool.and_eq_true] at hAll
      rw [hParts]
      change Succeeds (need "type" parts.type >>= _)
      refine (succeeds_need hAll.1 _).bind fun type _ => ?_
      split
      · exact ⟨_, rfl⟩
      · exact (succeeds_need hAll.2 _).bind fun _ _ => ⟨_, rfl⟩
  · exact ⟨_, rfl⟩

/- The statements of a complete body can be put in order. -/
theorem exists_ordered
    {statements : List Statement}
    (hComplete : ∀ s ∈ statements, s.isComplete = true) :
    Succeeds (ordered statements) := by
  refine Succeeds.bind (Succeeds.mapM ?_) fun _ _ => ⟨_, rfl⟩
  intro s hMem
  rcases exists_parts (hComplete s hMem) with
    ⟨-, -, -, -, -, hRange⟩
  exact (succeeds_need hRange _).bind fun _ _ => ⟨_, rfl⟩

theorem succeeds_constructorOf?
    (f : Frame)
    (hKnown :
      ∀ owner, ∀ d ∈ f.symbols.methodsOf owner,
        d.isConstructor.isSome = true)
    (type : Option String)
    (arity : Int) :
    Succeeds (f.constructorOf? type arity) := by
  unfold constructorOf?
  split
  · exact Symbols.succeeds_constructor? hKnown _ arity
  · exact ⟨_, rfl⟩

/- What a complete statement calls can be looked for. -/
theorem succeeds_target?
    (f : Frame)
    (hKnown :
      ∀ owner, ∀ d ∈ f.symbols.methodsOf owner,
        d.isConstructor.isSome = true)
    {kind : StatementKind}
    {parts : Parts}
    (hComplete : parts.isComplete kind = true)
    (hCall : kind ≠ .declare ∧ kind ≠ .throwing) :
    Succeeds (f.target? kind parts) ∧
      parts.handlers.isSome = true := by
  cases kind with
  | declare => exact absurd rfl hCall.1
  | throwing => exact absurd rfl hCall.2
  | create =>
      simp only [Parts.isComplete, Bool.and_eq_true] at hComplete
      rcases hComplete with ⟨⟨hType, hArity⟩, hHandlers⟩
      refine ⟨?_, hHandlers⟩
      refine (succeeds_need hArity _).bind fun arity _ => ?_
      refine (succeeds_need hType _).bind fun type _ => ?_
      exact f.succeeds_constructorOf? hKnown _ arity
  | construct =>
      simp only [Parts.isComplete, Bool.and_eq_true] at hComplete
      rcases hComplete with ⟨⟨hTarget, hArity⟩, hHandlers⟩
      refine ⟨?_, hHandlers⟩
      refine (succeeds_need hArity _).bind fun arity _ => ?_
      refine (succeeds_need hTarget _).bind fun target _ => ?_
      exact f.succeeds_constructorOf? hKnown _ arity
  | call =>
      simp only [Parts.isComplete, Bool.and_eq_true] at hComplete
      rcases hComplete with
        ⟨⟨⟨hRecv, hName⟩, hArity⟩, hHandlers⟩
      refine ⟨?_, hHandlers⟩
      refine (succeeds_need hArity _).bind fun arity _ => ?_
      refine (succeeds_need hRecv _).bind fun recv _ => ?_
      split
      · exact ⟨_, rfl⟩
      · exact (succeeds_need hName _).bind fun _ _ => ⟨_, rfl⟩

theorem succeeds_thrown?
    (f : Frame)
    {parts : Parts}
    (hComplete : parts.isComplete .throwing = true) :
    Succeeds (f.thrown? parts) := by
  rw [Parts.isComplete, Bool.and_eq_true] at hComplete
  refine (succeeds_need hComplete.1 _).bind fun type _ => ?_
  split
  · exact ⟨_, rfl⟩
  · exact (succeeds_need hComplete.2 _).bind fun _ _ => ⟨_, rfl⟩

/- What a complete statement does can be told. -/
theorem succeeds_effect
    (f : Frame)
    (hKnown :
      ∀ owner, ∀ d ∈ f.symbols.methodsOf owner,
        d.isConstructor.isSome = true)
    {s : Statement}
    (hComplete : s.isComplete = true) :
    Succeeds (f.effect s) := by
  rcases exists_parts hComplete with
    ⟨kind, parts, hKind, hParts, hAll, -⟩
  rw [effect, hKind, hParts]
  refine Succeeds.bind ⟨kind, rfl⟩ fun _ hSame => ?_
  cases hSame
  refine Succeeds.bind ⟨parts, rfl⟩ fun _ hSame => ?_
  cases hSame
  cases kind with
  | declare => exact ⟨_, rfl⟩
  | throwing =>
      refine (f.succeeds_thrown? hAll).bind fun c _ => ?_
      cases c <;> exact ⟨_, rfl⟩
  | _ =>
      rcases f.succeeds_target? hKnown hAll (by simp) with
        ⟨hTarget, hHandlers⟩
      refine hTarget.bind fun t _ => ?_
      cases t with
      | none => exact ⟨_, rfl⟩
      | some t =>
          exact (succeeds_need hHandlers _).bind
            fun _ _ => ⟨_, rfl⟩

/- What a complete body does can be told. -/
theorem succeeds_effects
    {symbols : Symbols}
    (hKnown :
      ∀ owner, ∀ d ∈ symbols.methodsOf owner,
        d.isConstructor.isSome = true)
    (owner : String)
    {statements : List Statement}
    (hComplete : ∀ s ∈ statements, s.isComplete = true) :
    Succeeds (effects symbols owner statements) := by
  have hOrdered := exists_ordered hComplete
  have hPlaced :
      ∀ placed, ordered statements = .ok placed →
        ∀ s ∈ placed, s.isComplete = true := by
    intro placed hPlaced s hMem
    exact hComplete s ((perm_of_ordered hPlaced).mem_iff.mp hMem)
  refine Succeeds.bind ?_ fun frame hFrame => ?_
  · refine hOrdered.bind fun placed hRun => ?_
    refine Succeeds.foldlM ?_ _
    intro f s hMem
    exact f.succeeds_declare (hPlaced placed hRun s hMem)
  · refine hOrdered.bind fun placed hRun => ?_
    refine Succeeds.mapM ?_
    intro s hMem
    refine frame.succeeds_effect ?_ (hPlaced placed hRun s hMem)
    rw [ofBody_symbols hFrame]
    exact hKnown

end Frame

------------------------------------------------------------
-- Resolutions
------------------------------------------------------------

namespace Resolution

theorem succeeds_byMethod
    {statements : List Statement}
    (hComplete : ∀ s ∈ statements, s.isComplete = true) :
    Succeeds (byMethod statements) := by
  refine Succeeds.foldlM ?_ _
  intro table s hMem
  have hSome := hComplete s hMem
  simp only [Statement.isComplete, Bool.and_eq_true] at hSome
  exact (succeeds_need hSome.1.1 _).bind fun _ _ => ⟨_, rfl⟩

/-
  What the bodies of a file do can be told, if the file is
  complete and its statements belong to declared methods.
-/
theorem succeeds_bodiesOf
    {symbols : Symbols}
    (hSymbols : Symbols.ofFiles files = .ok symbols)
    (hComplete : ∀ f ∈ files, f.isComplete = true)
    {f : FileSummary}
    (hFile : f ∈ files)
    (hOwners :
      ∀ s ∈ f.statements.getD [], ∃ g ∈ files,
        ∃ text ∈ g.methodTexts, s.owner = some text) :
    Succeeds (bodiesOf symbols f) := by
  have hKnown :
      ∀ owner, ∀ d ∈ symbols.methodsOf owner,
        d.isConstructor.isSome = true := by
    intro owner d hMethod
    exact Symbols.isSome_isConstructor hSymbols hComplete hMethod
  rcases (f.isComplete_iff.mp (hComplete f hFile)).2.2.2 with
    ⟨statements, hStatements, hAll⟩
  rw [hStatements, Option.getD_some] at hOwners
  rw [bodiesOf, hStatements, need_some]
  refine (succeeds_byMethod hAll).bind fun table hTable => ?_
  refine Succeeds.mapM ?_
  intro e he
  -- A body has a statement, whose method has a signature.
  rcases (get?_byMethod_iff hTable e.1 e.2).mp
      ((Table.get?_eq_some_iff _ e.1 e.2).mpr he) with
    ⟨⟨s, hMem, hOwner⟩, hBody⟩
  rcases hOwners s hMem with ⟨g, hOther, text, hText, hSame⟩
  rw [hOwner] at hSame
  cases hSame
  rcases Symbols.exists_signature hSymbols hComplete hOther
      hText with
    ⟨sig, hSig⟩
  rw [bodyOf, hSig]
  refine Succeeds.bind ⟨sig, rfl⟩ fun _ _ => ?_
  refine Succeeds.bind ?_ fun _ _ => ⟨_, rfl⟩
  refine Frame.succeeds_effects hKnown _ ?_
  intro s hs
  rw [hBody] at hs
  exact hAll s (List.mem_filter.mp hs).1

/-
  Complete files can be resolved, if their statements belong to
  methods that some file declares.
-/
theorem succeeds_ofFiles
    (hComplete : ∀ f ∈ files, f.isComplete = true)
    (hOwners :
      ∀ f ∈ files, ∀ s ∈ f.statements.getD [],
        ∃ g ∈ files, ∃ text ∈ g.methodTexts,
          s.owner = some text) :
    Succeeds (ofFiles files) := by
  rcases Symbols.succeeds_ofFiles hComplete with
    ⟨symbols, hSymbols⟩
  have hBodies : Succeeds (files.mapM (bodiesOf symbols)) := by
    refine Succeeds.mapM ?_
    intro f hFile
    exact succeeds_bodiesOf hSymbols hComplete hFile
      (hOwners f hFile)
  rcases hBodies with ⟨found, hFound⟩
  refine Succeeds.bind ⟨symbols, hSymbols⟩ fun _ hSame => ?_
  rw [hSymbols] at hSame
  cases hSame
  change Succeeds (files.foldlM addFile (start symbols))
  rw [foldlM_addFile, hFound]
  exact ⟨_, rfl⟩

/- Such files have a resolution, which adds up their bodies. -/
theorem exists_resolves_of_complete
    (hComplete : ∀ f ∈ files, f.isComplete = true)
    (hOwners :
      ∀ f ∈ files, ∀ s ∈ f.statements.getD [],
        ∃ g ∈ files, ∃ text ∈ g.methodTexts,
          s.owner = some text) :
    ∃ r bodies, ofFiles files = .ok r ∧
      Resolves files bodies r := by
  rcases succeeds_ofFiles hComplete hOwners with
    ⟨r, hResolved⟩
  rcases ofFiles_eq_ok_iff.mp hResolved with
    ⟨bodies, hResolves⟩
  exact ⟨r, bodies, hResolved, hResolves⟩

end Resolution

end Uncaught
