import Uncaught.Proofs.Resolve.Population

/-
  Calls in the bodies of a project, and what they reach: a call
  on a type is dispatched to the methods that the types below
  it declare, whatever class the method that is written belongs
  to.

  Key definitions include:
    * `Resolution.CallSite`

  Main declarations:
    * `Resolution.Resolves.exists_body`
    * `Resolution.Resolves.exists_facts_of_effect`
    * `Resolution.CallSite.exists_facts`
    * `Resolution.dispatch_sound`
-/

namespace Uncaught

open Symbols (Target)

namespace Resolution

variable {files : List FileSummary} {r : Resolution}
variable {bodies : List (Signature × List Effect)}

------------------------------------------------------------
-- Call Sites
------------------------------------------------------------

/-
  A call in the body of a method of the project: its receiver
  has a type, and the type has the method that is called.
-/
structure CallSite
    (files : List FileSummary)
    (r : Resolution) where
  file : FileSummary
  text : String
  statement : Statement
  parts : Parts
  receiver : Option String
  name : String
  arity : Int
  caller : Signature
  frame : Frame
  type : String
  target : Signature
  file_mem : file ∈ files
  statement_mem : statement ∈ statementsOf file text
  kind_eq : statement.kind = some .call
  parts_eq : statement.parts = some parts
  receiver_eq : parts.recv = some receiver
  name_eq : parts.name = some name
  arity_eq : parts.arity = some arity
  caller_eq : r.symbols.signatures.get? text = some caller
  frame_eq :
    Frame.ofBody r.symbols caller.owner
      (statementsOf file text) = .ok frame
  type_eq : frame.receiver? receiver = some type
  type_ne : type ≠ ""
  target_eq : (r.method? type name arity).1 = some target

/- The body of each method with statements is added. -/
theorem Resolves.exists_body
    (hResolves : Resolves files bodies r)
    {f : FileSummary}
    (hFile : f ∈ files)
    {text : String}
    {s : Statement}
    (hMem : s ∈ statementsOf f text)
    {sig : Signature}
    (hSig : r.symbols.signatures.get? text = some sig) :
    ∃ es,
      Frame.effects r.symbols sig.owner (statementsOf f text) =
        .ok es ∧ (sig, es) ∈ bodies := by
  rcases map_eq_ok_iff.mp hResolves.bodies_eq with
    ⟨found, hFound, rfl⟩
  rcases exists_of_mem_left (forall₂_of_mapM_eq_ok hFound)
      hFile with
    ⟨ofFile, hOfFile, hBodies⟩
  rcases exists_table_of_bodiesOf hBodies with
    ⟨table, hTable, hOwn, hEntries⟩
  have hKey := (mem_keys_byMethod_iff hTable text).mpr
    ⟨s, (mem_statementsOf_iff f text s).mp hMem⟩
  rcases (Table.mem_keys_iff _ _).mp hKey with ⟨ofText, hBody⟩
  have hEntry := (Table.get?_eq_some_iff _ _ _).mp hBody
  rcases exists_of_mem_left hEntries hEntry with
    ⟨body, hAdded, hBodyOf⟩
  rw [show ofText = statementsOf f text from hOwn _ hEntry]
    at hBodyOf
  simp only [bodyOf, bind_eq_ok_iff, need_eq_ok_iff] at hBodyOf
  rcases hBodyOf with ⟨sig', hSig', es, hEffects, hPair⟩
  rw [hSig] at hSig'
  cases hSig'
  cases hPair
  exact ⟨es, hEffects, List.mem_flatten.mpr
    ⟨ofFile, hOfFile, hAdded⟩⟩

/- The facts of a method have what a statement of it does. -/
theorem Resolves.exists_facts_of_effect
    (hResolves : Resolves files bodies r)
    {f : FileSummary}
    (hFile : f ∈ files)
    {text : String}
    {s : Statement}
    (hMem : s ∈ statementsOf f text)
    {caller : Signature}
    (hCaller : r.symbols.signatures.get? text = some caller)
    {frame : Frame}
    (hFrame :
      Frame.ofBody r.symbols caller.owner (statementsOf f text) =
        .ok frame)
    (mark : Mark)
    (hMakes :
      ∀ e, frame.effect s = .ok e → e.Makes mark) :
    ∃ facts, r.facts.get? caller = some facts ∧
      facts.Has mark := by
  rcases hResolves.exists_body hFile hMem hCaller with
    ⟨es, hEffects, hBody⟩
  rcases bind_eq_ok_iff.mp hEffects with
    ⟨frame', hFrame', hEffects⟩
  rw [hFrame] at hFrame'
  cases hFrame'
  rcases bind_eq_ok_iff.mp hEffects with
    ⟨placed, hPlaced, hEffects⟩
  have hPlace :=
    (Frame.perm_of_ordered hPlaced).mem_iff.mpr hMem
  rcases exists_of_mem_left (forall₂_of_mapM_eq_ok hEffects)
      hPlace with
    ⟨e, hEffect, hOf⟩
  exact (hResolves.has_iff caller mark).mpr
    ⟨_, hBody, rfl, e, hEffect, hMakes e hOf⟩

namespace CallSite

variable (site : CallSite files r)

/- The target of the call is found in its frame. -/
theorem exists_target :
    ∃ t, r.symbols.method? site.type site.name site.arity =
        some t ∧
      t.signature = site.target ∧
      site.frame.target? .call site.parts = .ok (some t) := by
  rcases Option.map_eq_some_iff.mp site.target_eq with
    ⟨t, hMethod, hSignature⟩
  refine ⟨t, hMethod, hSignature, ?_⟩
  have hType :
      (site.frame.receiver? site.receiver).filter
        (!·.isEmpty) = some site.type := by
    rw [site.type_eq, Option.filter_eq_some_iff]
    exact ⟨rfl, by simpa using site.type_ne⟩
  have hFrame := Frame.ofBody_symbols site.frame_eq
  simp only [Frame.target?, site.arity_eq, site.receiver_eq,
    need_some, bind, Except.bind]
  rw [hType, hFrame]
  simp only [site.name_eq, need_some, hMethod]
  rfl

/- What the statement does is to call the target. -/
theorem exists_effect
    {e : Effect}
    (hEffect : site.frame.effect site.statement = .ok e) :
    e.Makes (.calls site.target) := by
  rcases site.exists_target with ⟨t, -, hSignature, hTarget⟩
  simp only [Frame.effect, site.kind_eq, site.parts_eq,
    need_some, bind, Except.bind, hTarget] at hEffect
  cases hHandlers : site.parts.handlers with
  | none => simp [hHandlers, need] at hEffect
  | some handlers =>
      rw [hHandlers] at hEffect
      cases hEffect
      exact hSignature

/- The caller has the target among its calls. -/
theorem exists_facts
    (hResolves : Resolves files bodies r) :
    ∃ f, r.facts.get? site.caller = some f ∧
      site.target ∈ f.calls := by
  apply hResolves.exists_facts_of_effect site.file_mem
    site.statement_mem site.caller_eq site.frame_eq
    (.calls site.target)
  intro e hEffect
  exact site.exists_effect hEffect

end CallSite

------------------------------------------------------------
-- Dispatch
------------------------------------------------------------

/- The links of the project are links of the database. -/
theorem Populates.directlyUnder_of_supertypes
    {settings : Settings}
    {db : Database}
    (hResolves : Resolves files bodies r)
    (hPopulates : Populates r settings db)
    {sub sup : String}
    (hSuper : sup ∈ r.symbols.links.supertypes sub) :
    db.build.database.DirectlyUnder sub sup := by
  rcases Links.of_mem_supertypes
      (Symbols.links_of_ofFiles hResolves.symbols_eq) hSuper with
    ⟨hDeclares, hName, hOther⟩
  rcases recordOf_of_declares hDeclares with
    ⟨c, hRecord, hUnder, -⟩
  exact ⟨c, (hPopulates.recordOf_build sub).trans hRecord,
    hUnder sup hSuper hName, hOther⟩

/- Where a type is a supertype of another, the other is below. -/
theorem Populates.reflTransGen_of_closure
    {settings : Settings}
    {db : Database}
    (hResolves : Resolves files bodies r)
    (hPopulates : Populates r settings db)
    {sub sup : String}
    (hClosure : sup ∈ r.symbols.links.closure sub) :
    Relation.ReflTransGen db.build.database.DirectlyUnder sub
      sup := by
  rw [Links.mem_closure_iff] at hClosure
  refine Relation.ReflTransGen.mono ?_ _ _ hClosure
  intro _ _ hNext
  exact hPopulates.directlyUnder_of_supertypes hResolves hNext

/- The callers of a method are those with a call that can run it. -/
theorem Populates.exists_callersOf
    {settings : Settings}
    {db : Database}
    (hPopulates : Populates r settings db)
    {caller written callee : Signature}
    (hCalls :
      db.build.database.CallsAs caller written callee) :
    ∃ callers,
      db.build.database.callersOf callee = .ok callers ∧
        caller ∈ callers := by
  rcases hPopulates.unbuilt.builtGraph
      hPopulates.build_failure_eq_none with
    ⟨records, hGraph⟩
  refine ⟨db.build.database.callersIn callee, ?_, ?_⟩
  · simp [Database.callersOf, Database.checkSealed,
      hGraph.isSealed, bind, Except.bind, pure, Except.pure]
  · rw [Database.mem_callersIn_iff,
      hGraph.exists_edgeBetween_iff hPopulates.ownNames_build]
    exact ⟨written, hCalls⟩

/-
  A call on a type reaches what the types below declare. Where a
  type of the project is the type of the receiver or stands
  under it, and is not the class of the target, the caller calls
  each method that it declares with the name and the parameter
  types of the target.
-/
theorem dispatch_sound
    (settings : Settings)
    (hResolved : Resolution.ofFiles files = .ok r)
    (site : CallSite files r) :
    ∃ db, r.populate (.empty settings) = .ok db ∧
      db.build.failure = none ∧
      ∀ sub, r.symbols.names.declares sub = true →
        site.type ∈ r.symbols.links.closure sub →
        sub ≠ site.target.owner →
        ∀ d ∈ r.symbols.methodsOf sub,
          d.signature.name = site.target.name →
          d.signature.params = site.target.params →
          ∃ callers,
            db.build.database.callersOf d.signature =
              .ok callers ∧ site.caller ∈ callers := by
  rcases ofFiles_eq_ok_iff.mp hResolved with
    ⟨bodies, hResolves⟩
  rcases hResolves.exists_populate settings with
    ⟨db, hRun, hPopulates⟩
  refine ⟨db, hRun, hPopulates.build_failure_eq_none, ?_⟩
  intro sub hDeclares hReceiver hOther d hMethod hName hParams
  rcases site.exists_facts hResolves with ⟨f, hFacts, hCall⟩
  rcases site.exists_target with ⟨t, hTarget, hSame, -⟩
  have hOwner :=
    (Symbols.finds_of_method? hResolves.symbols_eq hTarget).2
  rw [hSame] at hOwner
  -- Up from the subtype to the type of the receiver, and on to
  -- the class of the target.
  have hPath :=
    (hPopulates.reflTransGen_of_closure hResolves
      hReceiver).trans
        (hPopulates.reflTransGen_of_closure hResolves hOwner)
  have hBelow :
      db.build.database.Below sub site.target.owner :=
    (Relation.reflTransGen_iff_eq_or_transGen.mp
      hPath).resolve_left hOther.symm
  rcases recordOf_of_declares hDeclares with
    ⟨c, hRecord, -, hMethods⟩
  have hRuns :
      db.build.database.RunsAs site.target d.signature :=
    .inr ⟨sub, c, (hPopulates.recordOf_build sub).trans hRecord,
      hBelow, hMethods d hMethod, hName, hParams⟩
  have hCaller :
      db.build.database.facts.get? site.caller = some f := by
    rw [hPopulates.get?_facts_build, hFacts]
    rfl
  exact hPopulates.exists_callersOf ⟨f, hCaller, hCall, hRuns⟩

/- A call of the method `f` on the variable `x`. -/
def callOnVariable : Statement :=
  { kind := some .call
    owner := some "M#g(I)"
    parts := some {
      recv := some (some "x")
      name := some "f"
      arity := some 0
      handlers := some [] }
    range := some ⟨2, 3⟩ }

/-
  A method that calls a method of an interface on a variable.
  The interface is implemented by a class without the method,
  which a class with the method extends.
-/
def interfaceFile : FileSummary :=
  { path := "M.java"
    types := [
      { fqn := "I"
        extended := some []
        implemented := some []
        isInterface := true },
      { fqn := "A"
        extended := some []
        implemented := some ["I"] },
      { fqn := "B"
        extended := some ["A"]
        implemented := some [] },
      { fqn := "M"
        extended := some []
        implemented := some [] }]
    methods := some [
      { owner := some "I"
        name := some "f"
        sig := some "I#f()"
        params := some []
        throws := some []
        isConstructor := some false },
      { owner := some "B"
        name := some "f"
        sig := some "B#f()"
        params := some []
        throws := some []
        isConstructor := some false },
      { owner := some "M"
        name := some "g"
        sig := some "M#g(I)"
        params := some ["I"]
        throws := some []
        isConstructor := some false }]
    statements := some [
      { kind := some .declare
        owner := some "M#g(I)"
        parts := some {
          type := some (some "I")
          name := some "x" }
        range := some ⟨0, 1⟩ },
      callOnVariable] }

namespace interfaceFile

theorem resolve?_eq
    (owner : Option String) :
    (Names.ofFiles [interfaceFile]).resolve? "I" owner =
        some "I" ∧
      (Names.ofFiles [interfaceFile]).resolve? "A" owner =
        some "A" := by
  constructor
  all_goals
    exact Names.resolve?_of_declares rfl (by decide)
      (by decide) owner

theorem supertypes_eq
    {links : Links}
    (hLinks :
      Links.ofFiles (.ofFiles [interfaceFile])
        [interfaceFile] = .ok links) :
    links.supertypes "B" = ["A"] ∧
      links.supertypes "A" = ["I"] := by
  have hTypes :
      (Names.ofFiles [interfaceFile]).types.get? "B" =
          some ⟨{ fqn := "B"
                  extended := some ["A"]
                  implemented := some [] }, {
                  package := none
                  singles := .empty
                  wildcards := [] }⟩ ∧
        (Names.ofFiles [interfaceFile]).types.get? "A" =
          some ⟨{ fqn := "A"
                  extended := some []
                  implemented := some ["I"] }, {
                  package := none
                  singles := .empty
                  wildcards := [] }⟩ :=
    ⟨rfl, rfl⟩
  simp [Links.supertypes_eq_of_ofFiles hLinks, Links.parentOf,
    Links.interfacesOf, Links.headNames, hTypes, resolve?_eq]

/- The frame of the body of the caller. -/
def frame
    (symbols : Symbols) : Frame :=
  { symbols
    owner := "M"
    locals := (Frame.start symbols "M").locals.insert "x" "I" }

theorem ofBody_eq
    {symbols : Symbols}
    (hNames : symbols.names = .ofFiles [interfaceFile]) :
    Frame.ofBody symbols "M"
        (statementsOf interfaceFile "M#g(I)") =
      .ok (frame symbols) := by
  have hBody :
      statementsOf interfaceFile "M#g(I)" =
        interfaceFile.statements.getD [] := by
    decide
  have hOrdered :
      Frame.ordered (interfaceFile.statements.getD []) =
        .ok (interfaceFile.statements.getD []) := by
    change Except.ok ((List.mergeSort [(0, _), (2, _)] _).map
      Prod.snd) = _
    rw [List.mergeSort_of_pairwise (by simp)]
    rfl
  have hType : (Frame.start symbols "M").type? "I" = some "I" := by
    rw [Frame.type?]
    change symbols.names.resolve? "I" _ = _
    rw [hNames, (resolve?_eq _).1]
  rw [Frame.ofBody, hBody, hOrdered]
  simp [interfaceFile, callOnVariable, Frame.declare, bind,
    Except.bind, hType, frame]
  rfl

/- The call, as a site in any resolution of the file. -/
def site
    {r : Resolution}
    (hSymbols : Symbols.ofFiles [interfaceFile] = .ok r.symbols) :
    CallSite [interfaceFile] r where
  file := interfaceFile
  text := "M#g(I)"
  statement := callOnVariable
  parts := {
    recv := some (some "x")
    name := some "f"
    arity := some 0
    handlers := some [] }
  receiver := some "x"
  name := "f"
  arity := 0
  caller := { owner := "M", name := "g", params := ["I"] }
  frame := frame r.symbols
  type := "I"
  target := { owner := "I", name := "f" }
  file_mem := List.mem_singleton.mpr rfl
  statement_mem := by decide
  kind_eq := rfl
  parts_eq := rfl
  receiver_eq := rfl
  name_eq := rfl
  arity_eq := rfl
  caller_eq := by
    rw [Symbols.signatures_of_ofFiles hSymbols,
      Symbols.names_of_ofFiles hSymbols]
    rfl
  frame_eq := ofBody_eq (Symbols.names_of_ofFiles hSymbols)
  type_eq := by
    simp [Frame.receiver?, frame, Table.get?_insert]
  type_ne := by decide
  target_eq := by
    have hOwn :
        r.symbols.ownMethod? "f" 0 "I" =
          some { owner := "I", name := "f" } := by
      rw [Symbols.ownMethod?,
        Symbols.methodsOf_of_ofFiles hSymbols,
        Symbols.names_of_ofFiles hSymbols]
      rfl
    have hDeclares : r.symbols.names.declares "I" = true := by
      rw [Symbols.names_of_ofFiles hSymbols]
      rfl
    simp [Resolution.method?,
      Symbols.method?_of_ownMethod? hDeclares hOwn,
      Target.signature]

end interfaceFile

/- The method that calls on the variable calls the lowest class. -/
theorem dispatch_sound_interfaceFile :
    ∃ r db callers,
      Resolution.ofFiles [interfaceFile] = .ok r ∧
      r.populate (.empty {}) = .ok db ∧
      db.build.failure = none ∧
      db.build.database.callersOf
        { owner := "B", name := "f" } = .ok callers ∧
      { owner := "M", name := "g", params := ["I"] } ∈
        callers := by
  have hSucceeds :
      Succeeds (Resolution.ofFiles [interfaceFile]) :=
    succeeds_ofFiles (by decide) (by decide)
  rcases hSucceeds with ⟨r, hResolved⟩
  rcases ofFiles_eq_ok_iff.mp hResolved with ⟨_, hResolves⟩
  have hSymbols := hResolves.symbols_eq
  have hNames := Symbols.names_of_ofFiles hSymbols
  have hDeclares : r.symbols.names.declares "B" = true := by
    rw [hNames]
    rfl
  have hClosure : "I" ∈ r.symbols.links.closure "B" := by
    have hLinks := Symbols.links_of_ofFiles hSymbols
    rw [hNames] at hLinks
    rcases interfaceFile.supertypes_eq hLinks with
      ⟨hFirst, hSecond⟩
    rw [Links.mem_closure_iff]
    refine .tail (.single (b := "A") ?_) ?_
    · rw [Graph.Next, hFirst]
      exact List.mem_singleton.mpr rfl
    · rw [Graph.Next, hSecond]
      exact List.mem_singleton.mpr rfl
  have hMethod :
      ⟨{ owner := "B", name := "f" }, some false⟩ ∈
        r.symbols.methodsOf "B" := by
    rw [Symbols.methodsOf_of_ofFiles hSymbols, hNames]
    exact List.mem_singleton.mpr rfl
  rcases dispatch_sound {} hResolved
      (interfaceFile.site hSymbols) with
    ⟨db, hRun, hSuccess, hCallers⟩
  rcases hCallers "B" hDeclares hClosure
      (show "B" ≠ "I" by decide) _ hMethod rfl rfl with
    ⟨callers, hAnswer, hMem⟩
  exact ⟨r, db, callers, hResolved, hRun, hSuccess, hAnswer,
    hMem⟩

end Resolution

end Uncaught
