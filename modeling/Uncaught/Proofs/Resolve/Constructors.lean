import Uncaught.Proofs.Resolve.CallSites

/-
  What the calls of a project can run. A call of a constructor
  is dispatched like any other call: it runs, besides the
  constructor that is written, the constructors with the same
  parameter types that the types below declare. So constructors
  are called as written just if no type below has such a one.

  Main declarations:
    * `Resolution.exists_declared_of_recordOf`
    * `Resolution.Populates.mem_dispatches_iff`
    * `Resolution.constructor_dispatches_iff`
    * `Resolution.creation_runs_subclass_constructor`
-/

namespace Uncaught

namespace Resolution

variable {files : List FileSummary} {r : Resolution}
variable {bodies : List (Signature × List Effect)}
variable {settings : Settings} {db : Database}

------------------------------------------------------------
-- Dispatched Calls Of A Project
------------------------------------------------------------

/- Only the types of a project have methods in their records. -/
theorem exists_declared_of_recordOf
    {name : String}
    {c : ClassRecord}
    (hRecord : r.recordOf name = some c)
    {m : Signature}
    (hMem : m ∈ c.methods) :
    r.symbols.names.declares name = true ∧
      ∃ d ∈ r.symbols.methodsOf name, d.signature = m := by
  rcases Option.or_eq_some_iff.mp hRecord with
    hProject | ⟨-, hPlatform⟩
  · rcases Option.map_eq_some_iff.mp hProject with
      ⟨d, hClass, rfl⟩
    rcases Option.map_eq_some_iff.mp hClass with
      ⟨t, hType, rfl⟩
    exact ⟨(Names.declares_iff _ _).mpr ⟨t, hType⟩,
      List.mem_map.mp (List.mem_eraseDups.mp hMem)⟩
  · rw [(of_platformRecord hPlatform).2] at hMem
    simp at hMem

/-
  A method that can run in the place of another: a type below
  the class of the other one declares it, with the same name and
  the same parameter types.
-/
structure Overrides
    (r : Resolution)
    (db : Database)
    (callee written : Signature) : Prop where
  declared :
    ∃ sub, r.symbols.names.declares sub = true ∧
      db.build.database.Below sub written.owner ∧
        ∃ d ∈ r.symbols.methodsOf sub, d.signature = callee
  name_eq : callee.name = written.name
  params_eq : callee.params = written.params

theorem Populates.runsAs_iff
    (hPopulates : Populates r settings db)
    (written callee : Signature) :
    db.build.database.RunsAs written callee ↔
      callee = written ∨ r.Overrides db callee written := by
  unfold Database.RunsAs
  simp only [hPopulates.recordOf_build]
  constructor
  · rintro (hSame | ⟨sub, c, hRecord, hBelow, hMethod, hName,
      hParams⟩)
    · exact .inl hSame
    · rcases exists_declared_of_recordOf hRecord hMethod with
        ⟨hDeclares, hDeclared⟩
      exact .inr ⟨⟨sub, hDeclares, hBelow, hDeclared⟩, hName,
        hParams⟩
  · rintro (hSame | ⟨⟨sub, hDeclares, hBelow, d, hMem, rfl⟩,
      hName, hParams⟩)
    · exact .inl hSame
    · rcases recordOf_of_declares hDeclares with
        ⟨c, hRecord, -, hMethods⟩
      exact .inr ⟨sub, c, hRecord, hBelow, hMethods d hMem,
        hName, hParams⟩

/- The dispatched calls of a project, by what it declares. -/
theorem Populates.mem_dispatches_iff
    (hPopulates : Populates r settings db)
    (e : DispatchEdge) :
    e ∈ db.build.database.dispatches ↔
      ∃ f, db.build.database.facts.get? e.caller = some f ∧
        e.written ∈ f.calls ∧
          (e.callee = e.written ∨
            r.Overrides db e.callee e.written) := by
  rcases hPopulates.unbuilt.builtGraph
      hPopulates.build_failure_eq_none with
    ⟨records, hGraph⟩
  rw [hGraph.mem_dispatches_iff hPopulates.ownNames_build]
  unfold Database.CallsAs
  simp only [hPopulates.runsAs_iff]

------------------------------------------------------------
-- Constructors
------------------------------------------------------------

/-
  Calls of constructors are dispatched like other calls. All of
  them run just what is written, if and only if no type below
  the class of a called constructor declares another one with
  the same parameter types.
-/
theorem constructor_dispatches_iff
    (settings : Settings)
    (hResolved : Resolution.ofFiles files = .ok r) :
    ∃ db, r.populate (.empty settings) = .ok db ∧
      db.build.failure = none ∧
      (∀ e, e ∈ db.build.database.dispatches ↔
        ∃ f, db.build.database.facts.get? e.caller = some f ∧
          e.written ∈ f.calls ∧
            (e.callee = e.written ∨
              r.Overrides db e.callee e.written)) ∧
      ((∀ e ∈ db.build.database.dispatches,
          e.written.name = Signature.constructorName →
            e.callee = e.written) ↔
        ∀ caller f written,
          db.build.database.facts.get? caller = some f →
          written ∈ f.calls →
          written.name = Signature.constructorName →
          ∀ callee, r.Overrides db callee written →
            callee = written) := by
  rcases ofFiles_eq_ok_iff.mp hResolved with
    ⟨bodies, hResolves⟩
  rcases hResolves.exists_populate settings with
    ⟨db, hRun, hPopulates⟩
  have hDispatches := hPopulates.mem_dispatches_iff
  refine ⟨db, hRun, hPopulates.build_failure_eq_none,
    hDispatches, ?_⟩
  constructor
  · intro hWritten caller f written hFacts hCall hName callee
      hOverrides
    exact hWritten ⟨caller, callee, written⟩
      ((hDispatches _).mpr
        ⟨f, hFacts, hCall, .inr hOverrides⟩) hName
  · intro hNone e hMem hName
    rcases (hDispatches e).mp hMem with
      ⟨f, hFacts, hCall, hSame | hOverrides⟩
    · exact hSame
    · exact hNone e.caller f e.written hFacts hCall hName
        e.callee hOverrides

/- A creation of an object of the class `A`. -/
def creation : Statement :=
  { kind := some .create
    owner := some "M#g()"
    parts := some {
      type := some (some "A")
      arity := some 0
      handlers := some [] }
    range := some ⟨0, 1⟩ }

/-
  A class and one below it, both with a constructor without
  parameters, and a method that creates an object of the upper
  one.
-/
def creationFile : FileSummary :=
  { path := "M.java"
    types := [
      { fqn := "A"
        extended := some []
        implemented := some [] },
      { fqn := "B"
        extended := some ["A"]
        implemented := some [] },
      { fqn := "M"
        extended := some []
        implemented := some [] }]
    methods := some [
      { owner := some "A"
        name := some Signature.constructorName
        sig := some "A#<init>()"
        params := some []
        throws := some []
        isConstructor := some true },
      { owner := some "B"
        name := some Signature.constructorName
        sig := some "B#<init>()"
        params := some []
        throws := some []
        isConstructor := some true },
      { owner := some "M"
        name := some "g"
        sig := some "M#g()"
        params := some []
        throws := some []
        isConstructor := some false }]
    statements := some [creation] }

namespace creationFile

/- The constructor of a class, without parameters. -/
def constructor
    (owner : String) : Signature :=
  { owner, name := Signature.constructorName }

def caller : Signature :=
  { owner := "M", name := "g" }

theorem ofBody_eq
    (symbols : Symbols) :
    Frame.ofBody symbols "M"
        (statementsOf creationFile "M#g()") =
      .ok (Frame.start symbols "M") := by
  have hBody :
      statementsOf creationFile "M#g()" = [creation] := by
    decide
  have hOrdered : Frame.ordered [creation] = .ok [creation] := by
    change Except.ok ((List.mergeSort [(0, _)] _).map
      Prod.snd) = _
    rw [List.mergeSort_singleton]
    rfl
  rw [Frame.ofBody, hBody, hOrdered]
  rfl

/- The creation calls the constructor of the upper class. -/
theorem makes_creation
    {symbols : Symbols}
    (hSymbols : Symbols.ofFiles [creationFile] = .ok symbols)
    {e : Effect}
    (hEffect :
      (Frame.start symbols "M").effect creation = .ok e) :
    e.Makes (.calls (constructor "A")) := by
  have hNames := Symbols.names_of_ofFiles hSymbols
  have hType :
      (Frame.start symbols "M").type? "A" = some "A" := by
    change symbols.names.resolve? "A" _ = _
    rw [hNames]
    exact Names.resolve?_of_declares rfl (by decide)
      (by decide) _
  have hFound :
      symbols.constructor? "A" 0 =
        .ok (some (.declared (constructor "A"))) := by
    rw [Symbols.constructor?,
      Symbols.methodsOf_of_ofFiles hSymbols, hNames]
    rfl
  have hTarget :
      (Frame.start symbols "M").target? .create
          { type := some (some "A")
            arity := some 0
            handlers := some [] } =
        .ok (some (.declared (constructor "A"))) := by
    simp only [Frame.target?, need_some, bind, Except.bind,
      Option.getD_some, hType]
    exact hFound
  simp only [Frame.effect, creation, need_some, bind,
    Except.bind, hTarget] at hEffect
  cases hEffect
  rfl

/- The method that creates the object calls the constructor. -/
theorem exists_facts
    (hResolves : Resolves [creationFile] bodies r) :
    ∃ f, r.facts.get? caller = some f ∧
      constructor "A" ∈ f.calls := by
  have hSymbols := hResolves.symbols_eq
  have hCaller :
      r.symbols.signatures.get? "M#g()" = some caller := by
    rw [Symbols.signatures_of_ofFiles hSymbols,
      Symbols.names_of_ofFiles hSymbols]
    rfl
  exact hResolves.exists_facts_of_effect
    (List.mem_singleton.mpr rfl) (s := creation) (by decide)
    hCaller (ofBody_eq r.symbols) (.calls (constructor "A"))
    fun e hEffect => makes_creation hSymbols hEffect

/- The lower class extends the upper one. -/
theorem below
    (hResolves : Resolves [creationFile] bodies r)
    (hPopulates : Populates r settings db) :
    db.build.database.Below "B" "A" := by
  have hSymbols := hResolves.symbols_eq
  have hLinks := Symbols.links_of_ofFiles hSymbols
  rw [Symbols.names_of_ofFiles hSymbols] at hLinks
  have hResolve :
      ∀ owner, (Names.ofFiles [creationFile]).resolve? "A"
        owner = some "A" :=
    Names.resolve?_of_declares rfl (by decide) (by decide)
  have hType :
      (Names.ofFiles [creationFile]).types.get? "B" =
        some ⟨{ fqn := "B"
                extended := some ["A"]
                implemented := some [] }, {
                package := none
                singles := .empty
                wildcards := [] }⟩ := rfl
  have hSuper : "A" ∈ r.symbols.links.supertypes "B" := by
    simp [Links.supertypes_eq_of_ofFiles hLinks, Links.parentOf,
      Links.interfacesOf, Links.headNames, hType, hResolve]
  exact .single (hPopulates.directlyUnder_of_supertypes
    hResolves hSuper)

/- The lower class declares its constructor. -/
theorem overrides
    (hResolves : Resolves [creationFile] bodies r)
    (hPopulates : Populates r settings db) :
    r.Overrides db (constructor "B") (constructor "A") := by
  have hSymbols := hResolves.symbols_eq
  have hNames := Symbols.names_of_ofFiles hSymbols
  refine ⟨⟨"B", ?_, below hResolves hPopulates,
    ⟨constructor "B", some true⟩, ?_, rfl⟩, rfl, rfl⟩
  · rw [hNames]
    rfl
  · rw [Symbols.methodsOf_of_ofFiles hSymbols, hNames]
    exact List.mem_singleton.mpr rfl

theorem exists_resolves :
    ∃ r bodies, Resolution.ofFiles [creationFile] = .ok r ∧
      Resolves [creationFile] bodies r :=
  exists_resolves_of_complete (by decide) (by decide)

/- The facts of the caller stay when the database is built. -/
theorem exists_facts_build
    (hResolves : Resolves [creationFile] bodies r)
    (hPopulates : Populates r settings db) :
    ∃ f, db.build.database.facts.get? caller = some f ∧
      constructor "A" ∈ f.calls := by
  rcases exists_facts hResolves with ⟨f, hFacts, hCall⟩
  refine ⟨f, ?_, hCall⟩
  rw [hPopulates.get?_facts_build, hFacts]
  rfl

end creationFile

/- In the sample not all constructors are called as written. -/
theorem constructor_dispatches_iff_creationFile :
    ∃ r db,
      Resolution.ofFiles [creationFile] = .ok r ∧
      r.populate (.empty {}) = .ok db ∧
      db.build.failure = none ∧
      ¬∀ e ∈ db.build.database.dispatches,
        e.written.name = Signature.constructorName →
          e.callee = e.written := by
  rcases creationFile.exists_resolves with
    ⟨r, bodies, hResolved, hResolves⟩
  rcases constructor_dispatches_iff {} hResolved with
    ⟨db, hRun, hSuccess, -, hWritten⟩
  rcases hResolves.exists_populate {} with
    ⟨db', hRun', hPopulates⟩
  rw [hRun] at hRun'
  cases hRun'
  rcases creationFile.exists_facts_build hResolves hPopulates with
    ⟨f, hFacts, hCall⟩
  refine ⟨r, db, hResolved, hRun, hSuccess, ?_⟩
  rw [hWritten]
  intro hNone
  have hSame := hNone _ f _ hFacts hCall rfl _
    (creationFile.overrides hResolves hPopulates)
  exact absurd hSame (by decide)

/-
  The method that creates an object of the upper class becomes a
  caller of the constructor of the lower one.
-/
theorem creation_runs_subclass_constructor :
    ∃ r db callers,
      Resolution.ofFiles [creationFile] = .ok r ∧
      r.populate (.empty {}) = .ok db ∧
      db.build.failure = none ∧
      (∃ e ∈ db.build.database.dispatches,
        e.written.name = Signature.constructorName ∧
          e.callee ≠ e.written) ∧
      db.build.database.callersOf
        (creationFile.constructor "B") = .ok callers ∧
      creationFile.caller ∈ callers := by
  rcases creationFile.exists_resolves with
    ⟨r, bodies, hResolved, hResolves⟩
  rcases hResolves.exists_populate {} with
    ⟨db, hRun, hPopulates⟩
  rcases creationFile.exists_facts_build hResolves hPopulates with
    ⟨f, hFacts, hCall⟩
  have hOverrides := creationFile.overrides hResolves hPopulates
  have hRuns :
      db.build.database.RunsAs (creationFile.constructor "A")
        (creationFile.constructor "B") :=
    (hPopulates.runsAs_iff _ _).mpr (.inr hOverrides)
  rcases hPopulates.exists_callersOf
      ⟨f, hFacts, hCall, hRuns⟩ with
    ⟨callers, hCallers, hCaller⟩
  refine ⟨r, db, callers, hResolved, hRun,
    hPopulates.build_failure_eq_none,
    ⟨⟨creationFile.caller, creationFile.constructor "B",
      creationFile.constructor "A"⟩, ?_, rfl, by decide⟩,
    hCallers, hCaller⟩
  exact (hPopulates.mem_dispatches_iff _).mpr
    ⟨f, hFacts, hCall, .inr hOverrides⟩

end Resolution

end Uncaught
