import Uncaught.Proofs.Database.Runs

/-
  This file defines what can be done to one database, and what
  can be asked of it. It shows that a database has two states:
  an open one can be filled but not asked, and a sealed one can
  be asked but not filled. A sealed database keeps its call
  graph, whatever is done to it, but for calls that tie.

  Key definitions include:
    * `Query`
    * `Operation`
    * `Database.reply`
    * `Database.perform`
    * `Database.Relisted`
    * `Database.Performs`
    * `Database.SameGraph`
    * `Database.Settled`

  Main declarations:
    * `Database.isSealed_perform_iff`
    * `Database.Settled.sameGraph_perform`
    * `Database.Settled.sameGraph_performs`
    * `Database.settled_performs`
    * `Database.open_then_sealed`
-/

namespace Uncaught

------------------------------------------------------------
-- Operations
------------------------------------------------------------

/- What can be asked of a database. -/
inductive Query where
  | callersOf (m : Signature)
  | isSource
      (m : Signature)
      (prefixes : Option (List String))
  | sources (prefixes : Option (List String))
  | exceptionsOf (m : Signature)
  | chainsFrom (source : Signature)
  | allChainsFrom (source : Signature)
  | canHandle (thrown caught : String)

/- What a database can answer. -/
inductive Answer where
  | done
  | truth (b : Bool)
  | methods (ms : List Signature)
  | names (ns : List String)
  | chains (cs : List Chain)

/- One thing that can be done to a database, or asked of it. -/
inductive Operation where
  | add (a : Addition)
  | assign (s : Signature) (f : MethodFacts)
  | change (s : Signature) (g : MethodFacts → MethodFacts)
  | stage (s : Database.Stage)
  | build
  | ask (q : Query)

/- The methods that are called have named packages. -/
def MethodFacts.CallsNamed
    (f : MethodFacts) : Prop :=
  ∀ c ∈ f.calls, c.NamedPackage

namespace Operation

/- The step of a run that an operation is; a question is none. -/
def step? : Operation → Option Step
  | add a => some (.add a)
  | assign s f => some (.assign s f)
  | change s g => some (.change s g)
  | stage s => some (.stage s)
  | build => some .build
  | ask _ => none

/- An operation for which a database has to be open. -/
def Fills : Operation → Prop
  | add _ => True
  | build => True
  | _ => False

/-
  An operation that brings in calls only of methods with named
  packages.
-/
def NamesCalls : Operation → Prop
  | add (.facts f) => f.CallsNamed
  | assign _ f => f.CallsNamed
  | change _ g => ∀ f, f.CallsNamed → (g f).CallsNamed
  | _ => True

end Operation

namespace Database

/- What a database answers to a question. -/
def ask
    (db : Database) : Query → Outcome Answer
  | .callersOf m => (db.callersOf m).map .methods
  | .isSource m prefixes => (db.isSource m prefixes).map .truth
  | .sources prefixes => (db.sources prefixes).map .methods
  | .exceptionsOf m => (db.exceptionsOf m).map .names
  | .chainsFrom source => (db.chainsFrom source).map .chains
  | .allChainsFrom source =>
      (db.allChainsFrom source).map .chains
  | .canHandle thrown caught =>
      (db.canHandle thrown caught).map .truth

/- What comes back when something is done to a database. -/
def reply
    (db : Database) : Operation → Outcome Answer
  | .add a => (db.add a).map fun _ => .done
  | .assign s f => (db.assignFacts s f).map fun _ => .done
  | .change _ _ => .ok .done
  | .stage s => (db.runStage s).map fun _ => .done
  | .build => db.build.failure.elim (.ok .done) .error
  | .ask q => db.ask q

/- The database after something is done to it. -/
def perform
    (db : Database)
    (op : Operation) : Database :=
  op.step?.elim db db.step

/- The database after one thing after another is done to it. -/
def performAll
    (db : Database)
    (ops : List Operation) : Database :=
  ops.foldl perform db

/-
  The same database, with its two sets of calls listed in any
  order. A set has no order of its own: it may be listed one way
  now and another way later.
-/
structure Relisted
    (db listed : Database) : Prop where
  calls : db.calls.Perm listed.calls
  dispatches : db.dispatches.Perm listed.dispatches
  rest :
    listed =
      { db with
        calls := listed.calls
        dispatches := listed.dispatches }

/-
  One thing after another is done to a database. Before each of
  them, and in the end, the sets of calls may be listed anew. A
  build lists the calls as its stages found them; where they are
  to be listed in another way, the stages are run one by one
  before the build.
-/
inductive Performs :
    Database → List Operation → Database → Prop where
  | done
      {db after : Database}
      (hListed : db.Relisted after) :
      Performs db [] after
  | next
      {db listed after : Database}
      {op : Operation}
      {rest : List Operation}
      (hListed : db.Relisted listed)
      (hRest : Performs (listed.perform op) rest after) :
      Performs db (op :: rest) after

/-
  A database has all that another one has, except for what its
  facts say of each method. Its sets of calls may be listed in
  another order, and a call in its index may be another one
  that ties with it.
-/
structure SameGraph
    (db after : Database) : Prop where
  facts : after.facts.keys = db.facts.keys
  bound : after.bound = db.bound
  classes : after.classes = db.classes
  hierarchy : after.hierarchy = db.hierarchy
  calls : db.calls.Perm after.calls
  dispatches : db.dispatches.Perm after.dispatches
  callers :
    SameCallers db.dispatches db.callers after.callers
  isSealed : after.isSealed = db.isSealed

/- No two calls of a database tie. -/
def CallsApart
    (db : Database) : Prop :=
  ∀ a ∈ db.dispatches, ∀ b ∈ db.dispatches, Ties a b → a = b

/-
  What makes the stages find nothing to do in a sealed
  database: known methods have facts, the hierarchy is the one
  of the classes, and the index has all methods and calls.
-/
structure Settled
    (db : Database) : Prop where
  bound_mem : ∀ s ∈ db.bound, s ∈ db.facts.keys
  linked :
    ∃ records, db.records = .ok records ∧
      db.hierarchy = some (.ofRecords records)
  facts_mem : ∀ s ∈ db.facts.keys, s ∈ db.callers.keys
  covered : Covers db.dispatches db.callers

variable {db listed after last : Database} {events : List Event}

------------------------------------------------------------
-- The Seal
------------------------------------------------------------

/- An open database answers no question. -/
theorem ask_of_open
    (hOpen : db.isSealed = false)
    (q : Query) :
    db.ask q = .error .notSealed := by
  have hCheck : db.checkSealed = .error .notSealed := by
    simp [checkSealed, hOpen]
  cases q <;>
    simp [ask, callersOf, isSource, sources, exceptionsOf,
      chainsFrom, allChainsFrom, chainsOver, canHandle, hCheck,
      bind, Except.bind, Except.map]

/- A sealed database is neither filled nor built. -/
theorem reply_of_fills
    (hSealed : db.isSealed = true)
    (op : Operation)
    (hFills : op.Fills) :
    db.reply op = .error .alreadySealed ∧
      db.perform op = db := by
  cases op with
  | add a =>
      have hAdd : db.add a = .error .alreadySealed := by
        cases a <;>
          simp [add, addMethod, addBound, addClass, checkOpen,
            hSealed, bind, Except.bind]
      simp [reply, perform, Operation.step?, step, hAdd,
        Except.map, Except.toOption]
  | build =>
      simp [reply, perform, Operation.step?, step,
        Database.build, hSealed]
  | assign s f => cases hFills
  | change s g => cases hFills
  | stage s => cases hFills
  | ask q => cases hFills

/- No stage seals a database. -/
theorem isSealed_of_runStage
    {s : Stage}
    (hStage : db.runStage s = .ok (after, events)) :
    after.isSealed = db.isSealed := by
  cases s with
  | facts =>
      rcases completeFacts_spec hStage with ⟨facts, rfl, -⟩
      rfl
  | classes =>
      rcases linkClasses_spec hStage with ⟨records, -, rfl⟩
      rfl
  | calls =>
      rcases collectCalls_spec hStage with ⟨calls, rfl, -⟩
      rfl
  | dispatches =>
      rcases dispatchCalls_spec hStage with
        ⟨dispatches, rfl, -⟩
      rfl
  | callers =>
      rw [indexCallers_spec hStage]

/- Building seals an open database if it succeeds. -/
theorem isSealed_build_iff
    (db : Database) :
    db.build.database.isSealed = true ↔
      db.isSealed = true ∨ db.build.failure = none := by
  cases hFailure : db.build.failure with
  | none =>
      rcases build_spec hFailure with
        ⟨-, _, _, _, _, -, -, -, -, hBuild⟩
      simp [hBuild]
  | some e =>
      rw [build_database_of_failure hFailure]
      by_cases hSealed : db.isSealed = true
      · simp [hSealed]
      · have hStages :
            (runStages db [] stages).database.isSealed =
              db.isSealed := by
          apply runStages_preserves
            (P := fun after => after.isSealed = db.isSealed)
          · intro before s after events hBefore hStage
            rw [isSealed_of_runStage hStage, hBefore]
          · rfl
        simp [hSealed, hStages]

/- Only building seals, and nothing breaks a seal. -/
theorem isSealed_perform_iff
    (db : Database)
    (op : Operation) :
    (db.perform op).isSealed = true ↔
      db.isSealed = true ∨
        (op = .build ∧ db.reply .build = .ok .done) := by
  have hKeeps :
      ∀ {outcome : Outcome Database},
        (∀ after, outcome = .ok after →
          after.isSealed = db.isSealed) →
        (outcome.toOption.getD db).isSealed = db.isSealed :=
    fun hOk => getD_preserves
      (P := fun after => after.isSealed = db.isSealed) rfl hOk
  cases op with
  | add a =>
      have hSame : (db.perform (.add a)).isSealed =
          db.isSealed := by
        apply hKeeps
        intro after hAdd
        rcases add_cases hAdd with
          ⟨f, -, h⟩ | ⟨s, -, h⟩ | ⟨name, b, -, h⟩ <;> rw [h]
      simp [hSame]
  | assign s f =>
      have hSame : (db.perform (.assign s f)).isSealed =
          db.isSealed := by
        apply hKeeps
        intro after hAssign
        unfold assignFacts at hAssign
        split at hAssign <;> cases hAssign
        rfl
      simp [hSame]
  | change s g => simp [perform, Operation.step?, step,
      changeFacts]
  | stage s =>
      have hSame : (db.perform (.stage s)).isSealed =
          db.isSealed := by
        apply stage_preserves
          (P := fun after => after.isSealed = db.isSealed) rfl
        intro after events hStage
        exact isSealed_of_runStage hStage
      simp [hSame]
  | build =>
      have hReply :
          db.reply .build = .ok .done ↔
            db.build.failure = none := by
        cases hFailure : db.build.failure <;>
          simp [reply, hFailure]
      rw [hReply]
      simp only [true_and]
      exact isSealed_build_iff db
  | ask q => simp [perform, Operation.step?]

------------------------------------------------------------
-- The Same Graph
------------------------------------------------------------

theorem Relisted.refl
    (db : Database) :
    db.Relisted db :=
  ⟨.refl _, .refl _, rfl⟩

theorem Relisted.isSealed
    (hListed : db.Relisted listed) :
    listed.isSealed = db.isSealed := by
  rw [hListed.rest]

/- A database that is listed anew has the same graph. -/
theorem Relisted.sameGraph
    (hListed : db.Relisted listed) :
    db.SameGraph listed := by
  have hRest := hListed.rest
  refine ⟨?_, ?_, ?_, ?_, hListed.calls, hListed.dispatches,
    ?_, hListed.isSealed⟩
  · rw [hRest]
  · rw [hRest]
  · rw [hRest]
  · rw [hRest]
  · rw [hRest]
    exact .refl _ _

theorem SameGraph.refl
    (db : Database) :
    db.SameGraph db :=
  (Relisted.refl db).sameGraph

theorem SameGraph.trans
    (hFirst : db.SameGraph after)
    (hSecond : after.SameGraph last) :
    db.SameGraph last where
  facts := hSecond.facts.trans hFirst.facts
  bound := hSecond.bound.trans hFirst.bound
  classes := hSecond.classes.trans hFirst.classes
  hierarchy := hSecond.hierarchy.trans hFirst.hierarchy
  calls := hFirst.calls.trans hSecond.calls
  dispatches := hFirst.dispatches.trans hSecond.dispatches
  callers :=
    hFirst.callers.trans
      (hSecond.callers.of_perm hFirst.dispatches)
  isSealed := hSecond.isSealed.trans hFirst.isSealed

/- With the same graph a database stays settled. -/
theorem SameGraph.settled
    (hSame : db.SameGraph after)
    (hSettled : db.Settled) :
    after.Settled where
  bound_mem := by
    rw [hSame.bound, hSame.facts]
    exact hSettled.bound_mem
  linked := by
    rw [hSame.hierarchy, records, hSame.classes]
    exact hSettled.linked
  facts_mem := by
    rw [hSame.facts, ← hSame.callers.shape.methods]
    exact hSettled.facts_mem
  covered :=
    hSettled.covered.of_sameCallers hSame.callers
      hSame.dispatches

/- In the same graph every method has the same callers. -/
theorem SameGraph.callersIn
    (hSame : db.SameGraph after) :
    after.callersIn = db.callersIn := by
  have hKeys :
      ∀ index : CallerIndex, ∀ m,
        ((index.get? m).getD .empty).keys =
          ((index.get? m).map Table.keys).getD [] := by
    intro index m
    cases index.get? m <;> rfl
  funext m
  rw [Database.callersIn, Database.callersIn, hKeys, hKeys,
    hSame.callers.shape.callers m]

------------------------------------------------------------
-- Settled Databases
------------------------------------------------------------

/- Building settles a database. -/
theorem settled_build
    (hSuccess : db.build.failure = none) :
    db.build.database.Settled := by
  rcases build_spec hSuccess with
    ⟨-, records, facts, calls, dispatches, hRecords, hFacts, -,
      -, hBuild⟩
  rw [hBuild]
  refine ⟨?_, ⟨records, hRecords, rfl⟩, ?_, ?_⟩
  · intro s hBound
    exact (mem_keys_completed_iff hFacts s).mpr (.inr hBound)
  · intro s hMem
    exact (mem_keys_indexOver _ _ _).mpr (.inl (.inr hMem))
  · exact covers_sorted dispatches _

/- A stage that runs again finds nothing to do. -/
theorem Settled.sameGraph_runStage
    (hSettled : db.Settled)
    (hSealed : db.isSealed = true)
    {s : Stage}
    (hStage : db.runStage s = .ok (after, events)) :
    db.SameGraph after := by
  cases s with
  | facts =>
      have hNone :
          db.bound.filter (!db.facts.contains ·) = [] := by
        rw [List.filter_eq_nil_iff]
        intro s hBound
        simpa using hSettled.bound_mem s hBound
      simp only [runStage, completeFacts, hNone] at hStage
      cases hStage
      exact .refl db
  | classes =>
      rcases hSettled.linked with
        ⟨records, hRecords, hHierarchy⟩
      rcases linkClasses_spec hStage with
        ⟨records', hRecords', rfl⟩
      rw [hRecords] at hRecords'
      cases hRecords'
      exact { SameGraph.refl db with
        hierarchy := hHierarchy.symm }
  | calls =>
      -- with a seal there may be no written calls
      have hNone : db.writtenCalls = [] := by
        by_contra hSome
        simp [runStage, collectCalls, hSealed, hSome]
          at hStage
      have hSame :
          db.collectCalls =
            .ok (db, [.callsCollected db.calls.length]) := by
        simp [collectCalls, hNone, added]
      rw [runStage, hSame] at hStage
      cases hStage
      exact .refl db
  | dispatches =>
      have hNone : db.calls.isEmpty = true := by
        by_contra hSome
        simp only [runStage, dispatchCalls, hSome] at hStage
        cases hHierarchy : db.hierarchy <;>
          simp [hHierarchy, hSealed] at hStage
      simp only [runStage, dispatchCalls, hNone] at hStage
      cases hStage
      exact .refl db
  | callers =>
      rw [indexCallers_spec hStage]
      exact { SameGraph.refl db with
        callers :=
          sameCallers_indexOver hSettled.facts_mem
            hSettled.covered }

/- Nothing changes the graph of a sealed database. -/
theorem Settled.sameGraph_perform
    (hSettled : db.Settled)
    (hSealed : db.isSealed = true)
    (op : Operation) :
    db.SameGraph (db.perform op) := by
  cases op with
  | add a =>
      rw [(reply_of_fills hSealed (.add a) trivial).2]
      exact .refl db
  | assign s f =>
      have hFixed : db.perform (.assign s f) = db := by
        simp [perform, Operation.step?, step, assignFacts,
          hSealed, Except.toOption]
      rw [hFixed]
      exact .refl db
  | change s g =>
      exact { SameGraph.refl db with
        facts := Table.keys_modify _ _ _ }
  | stage s =>
      apply stage_preserves (P := db.SameGraph) (.refl db)
      intro after events hStage
      exact hSettled.sameGraph_runStage hSealed hStage
  | build =>
      rw [(reply_of_fills hSealed .build trivial).2]
      exact .refl db
  | ask q => exact .refl db

/- However much is done to it, the graph stays the same. -/
theorem Settled.sameGraph_performs
    {ops : List Operation}
    (hSettled : db.Settled)
    (hSealed : db.isSealed = true)
    (hRun : db.Performs ops after) :
    db.SameGraph after := by
  induction hRun with
  | done hListed => exact hListed.sameGraph
  | @next db listed after op rest hListed hRest ih =>
      have hStill := hListed.isSealed.trans hSealed
      have hNext :=
        (hListed.sameGraph.settled hSettled).sameGraph_perform
          hStill op
      have hFirst := hListed.sameGraph.trans hNext
      exact hFirst.trans (ih (hFirst.settled hSettled)
        (hFirst.isSealed.trans hSealed))

/- A database that is sealed in the end is settled. -/
theorem settled_performs
    {ops : List Operation}
    (hSettled : db.isSealed = true → db.Settled)
    (hRun : db.Performs ops after)
    (hSealed : after.isSealed = true) :
    after.Settled := by
  induction hRun with
  | done hListed =>
      exact hListed.sameGraph.settled
        (hSettled (hListed.isSealed ▸ hSealed))
  | @next db listed after op rest hListed hRest ih =>
      refine ih ?_ hSealed
      intro hAfter
      rcases (isSealed_perform_iff listed op).mp hAfter with
        hBefore | ⟨rfl, hReply⟩
      · have hStart :=
          hListed.sameGraph.settled
            (hSettled (hListed.isSealed ▸ hBefore))
        exact (hStart.sameGraph_perform hBefore op).settled
          hStart
      · apply settled_build
        cases hFailure : listed.build.failure with
        | none => rfl
        | some e => simp [reply, hFailure] at hReply

/-
  A database is open until a build succeeds and sealed from
  then on. While it is open no question is answered. Once it is
  sealed it takes neither additions nor a build. Whatever else
  is done, its graph and all paths of callers stay. A call in
  its index gives way at most to one that ties with it, so that
  the index stays as well where no calls tie.
-/
theorem open_then_sealed
    (settings : Settings)
    (before : List Operation)
    (db : Database)
    (hRun : (empty settings).Performs before db) :
    (db.isSealed = false →
      ∀ q, db.reply (.ask q) = .error .notSealed ∧
        db.perform (.ask q) = db) ∧
    (∀ op, (db.perform op).isSealed = true ↔
      db.isSealed = true ∨
        (op = .build ∧ db.reply .build = .ok .done)) ∧
    (db.isSealed = true →
      (∀ op : Operation, op.Fills →
        db.reply op = .error .alreadySealed ∧
          db.perform op = db) ∧
      ∀ later after, db.Performs later after →
        db.SameGraph after ∧
          (db.CallsApart → after.callers = db.callers) ∧
          ∀ source,
            Graph.treePaths after.callersIn after.callers.keys
                source =
              Graph.treePaths db.callersIn db.callers.keys
                source ∧
            Graph.maximalPaths after.callersIn
                after.callers.keys source =
              Graph.maximalPaths db.callersIn db.callers.keys
                source) := by
  refine ⟨?_, isSealed_perform_iff db, ?_⟩
  · intro hOpen q
    exact ⟨ask_of_open hOpen q, rfl⟩
  · intro hSealed
    have hSettled : db.Settled := by
      refine settled_performs ?_ hRun hSealed
      intro hNever
      cases hNever
    refine ⟨reply_of_fills hSealed, ?_⟩
    intro later after hLater
    have hSame := hSettled.sameGraph_performs hSealed hLater
    refine ⟨hSame, ?_, ?_⟩
    · intro hApart
      exact (hSame.callers.eq hApart).symm
    · intro source
      rw [hSame.callersIn, hSame.callers.shape.methods]
      exact ⟨rfl, rfl⟩

/- A run in which nothing is listed anew. -/
theorem performs_performAll
    (db : Database)
    (ops : List Operation) :
    db.Performs ops (db.performAll ops) := by
  induction ops generalizing db with
  | nil => exact .done (.refl db)
  | cons op rest ih => exact .next (.refl db) (ih _)

/- Filling and building is one run of operations. -/
theorem BuiltFrom.performAll_eq
    {settings : Settings}
    {additions : List Addition}
    (hBuilt : BuiltFrom settings additions db) :
    (empty settings).performAll
        (additions.map .add ++ [.build]) =
      db := by
  rw [← hBuilt.run_eq, run, performAll, List.foldl_append,
    List.foldl_append, List.foldl_map, List.foldl_map]
  rfl

------------------------------------------------------------
-- Named Packages
------------------------------------------------------------

/- All calls of a database are of methods with named packages. -/
structure CallsNamed
    (db : Database) : Prop where
  facts : ∀ s f, db.facts.get? s = some f → f.CallsNamed
  calls : ∀ e ∈ db.calls, e.callee.NamedPackage
  dispatches : ∀ e ∈ db.dispatches, e.written.NamedPackage

namespace CallsNamed

/- Calls with named packages do not tie. -/
theorem callsApart
    (hNamed : db.CallsNamed) :
    db.CallsApart := by
  intro a ha b hb hTies
  exact hTies.eq_of_named (hNamed.dispatches a ha)
    (hNamed.dispatches b hb)

theorem relisted
    (hNamed : db.CallsNamed)
    (hListed : db.Relisted listed) :
    listed.CallsNamed where
  facts := by
    rw [hListed.rest]
    exact hNamed.facts
  calls := fun e he =>
    hNamed.calls e (hListed.calls.mem_iff.mpr he)
  dispatches := fun e he =>
    hNamed.dispatches e (hListed.dispatches.mem_iff.mpr he)

theorem of_facts
    {facts : Table Signature MethodFacts}
    (hNamed : db.CallsNamed)
    (hFacts :
      ∀ s f, facts.get? s = some f →
        db.facts.get? s = some f ∨ f.CallsNamed) :
    { db with facts }.CallsNamed where
  facts := by
    intro s f hGet
    rcases hFacts s f hGet with hOld | hNew
    · exact hNamed.facts s f hOld
    · exact hNew
  calls := hNamed.calls
  dispatches := hNamed.dispatches

/- What a stage makes calls of are calls that are there. -/
theorem runStage
    {s : Stage}
    (hNamed : db.CallsNamed)
    (hStage : db.runStage s = .ok (after, events)) :
    after.CallsNamed := by
  have hFacts :
      ∀ m f, after.facts.get? m = some f → f.CallsNamed := by
    intro m f hGet
    rcases facts_of_runStage hStage hGet with hOld | rfl
    · exact hNamed.facts m f hOld
    · exact fun _ hCall => nomatch hCall
  cases s with
  | facts =>
      rcases completeFacts_spec hStage with ⟨facts, rfl, -⟩
      exact ⟨hFacts, hNamed.calls, hNamed.dispatches⟩
  | classes =>
      rcases linkClasses_spec hStage with ⟨records, -, rfl⟩
      exact ⟨hFacts, hNamed.calls, hNamed.dispatches⟩
  | calls =>
      rcases collectCalls_spec hStage with ⟨calls, rfl, hCalls⟩
      refine ⟨hFacts, ?_, hNamed.dispatches⟩
      intro e he
      rcases (hCalls e).mp he with hOld | hWritten
      · exact hNamed.calls e hOld
      · rcases (mem_writtenCalls_iff _ _).mp hWritten with
          ⟨f, hCaller, hCall⟩
        exact hNamed.facts e.caller f hCaller e.callee hCall
  | dispatches =>
      rcases dispatchCalls_spec hStage with
        ⟨dispatches, rfl, hDispatches⟩
      refine ⟨hFacts, hNamed.calls, ?_⟩
      intro e he
      rcases (hDispatches e).mp he with
        hOld | ⟨h, -, call, hCall, hDispatch⟩
      · exact hNamed.dispatches e hOld
      · rw [((mem_dispatch_iff h call e).mp hDispatch).2.1]
        exact hNamed.calls call hCall
  | callers =>
      rw [indexCallers_spec hStage]
      exact ⟨hNamed.facts, hNamed.calls, hNamed.dispatches⟩

theorem perform
    {op : Operation}
    (hNamed : db.CallsNamed)
    (hOp : op.NamesCalls) :
    (db.perform op).CallsNamed := by
  cases op with
  | add a =>
      apply getD_preserves hNamed
      intro after hAdd
      rcases add_cases hAdd with
        ⟨f, rfl, rfl⟩ | ⟨s, -, h⟩ | ⟨name, b, -, rfl⟩
      · apply hNamed.of_facts
        intro s g hGet
        rcases Table.get?_insert_cases hGet with
          ⟨-, rfl⟩ | hOld
        · exact .inr hOp
        · exact .inl hOld
      · rw [h]
        exact ⟨hNamed.facts, hNamed.calls, hNamed.dispatches⟩
      · exact ⟨hNamed.facts, hNamed.calls, hNamed.dispatches⟩
  | assign s f =>
      apply getD_preserves hNamed
      intro after hAssign
      unfold assignFacts at hAssign
      split at hAssign <;> cases hAssign
      apply hNamed.of_facts
      intro m g hGet
      rcases Table.get?_insert_cases hGet with
        ⟨-, rfl⟩ | hOld
      · exact .inr hOp
      · exact .inl hOld
  | change s g =>
      apply hNamed.of_facts
      intro m f hGet
      rw [Table.get?_modify] at hGet
      by_cases hSame : m = s
      · rw [if_pos hSame, Option.map_eq_some_iff] at hGet
        rcases hGet with ⟨old, hOld, rfl⟩
        exact .inr (hOp old (hNamed.facts s old hOld))
      · rw [if_neg hSame] at hGet
        exact .inl hGet
  | stage s =>
      apply stage_preserves hNamed
      intro after events hStage
      exact hNamed.runStage hStage
  | build =>
      apply build_preserves (P := CallsNamed) _ _ hNamed
      · intro before s after events hBefore hStage
        exact hBefore.runStage hStage
      · intro before hBefore
        exact ⟨hBefore.facts, hBefore.calls, hBefore.dispatches⟩
  | ask q => exact hNamed

end CallsNamed

/- What is done with named packages makes no calls that tie. -/
theorem callsNamed_performs
    {ops : List Operation}
    (hNamed : db.CallsNamed)
    (hOps : ∀ op ∈ ops, op.NamesCalls)
    (hRun : db.Performs ops after) :
    after.CallsNamed := by
  induction hRun with
  | done hListed => exact hNamed.relisted hListed
  | @next db listed after op rest hListed hRest ih =>
      refine ih ?_ fun op hOp =>
        hOps op (List.mem_cons_of_mem _ hOp)
      exact (hNamed.relisted hListed).perform
        (hOps op List.mem_cons_self)

/- The calls that can run, listed from the last to the first. -/
def backward
    (db : Database) : Database :=
  { db with dispatches := db.dispatches.reverse }

/-
  A stage that fails, since there is no hierarchy yet, and then
  a build.
-/
def builtAfterFailure : List Operation :=
  twoWrittenCalls.map .add
    ++ [.stage .calls, .stage .dispatches, .build]

/-
  Neither changed facts nor stages that run again are seen, be
  the calls listed the other way round.
-/
theorem open_then_sealed_stagesAgain :
    ∃ db after,
      (empty {}).Performs builtAfterFailure db ∧
      db.isSealed = true ∧
      db.reply .build = .error .alreadySealed ∧
      db.CallsApart ∧
      db.Performs
        [.change { owner := "M", name := "g" }
          (·.addCall { owner := "C", name := "f" } ["E"]),
          .stage .calls, .stage .callers] after ∧
      db.SameGraph after ∧ after.callers = db.callers := by
  let db := (empty {}).performAll builtAfterFailure
  let changed :=
    db.performAll
      [.change { owner := "M", name := "g" }
        (·.addCall { owner := "C", name := "f" } ["E"]),
        .stage .calls]
  have hBefore : (empty {}).Performs builtAfterFailure db :=
    performs_performAll _ _
  have hListed : changed.Relisted changed.backward :=
    ⟨.refl _, (List.reverse_perm _).symm, rfl⟩
  have hLater :
      db.Performs
        [.change { owner := "M", name := "g" }
          (·.addCall { owner := "C", name := "f" } ["E"]),
          .stage .calls, .stage .callers]
        (changed.backward.perform (.stage .callers)) :=
    .next (.refl _) (.next (.refl _)
      (.next hListed (.done (.refl _))))
  have hSealed : db.isSealed = true := rfl
  have hApart : db.CallsApart := by
    apply CallsNamed.callsApart
    refine callsNamed_performs ⟨?_, ?_, ?_⟩ ?_ hBefore
    · intro s f hFacts
      cases hFacts
    · intro e he
      cases he
    · intro e he
      cases he
    · simp [builtAfterFailure, twoWrittenCalls,
        Operation.NamesCalls, MethodFacts.CallsNamed,
        Signature.NamedPackage]
  have hFixed :=
    (open_then_sealed {} builtAfterFailure db hBefore).2.2
      hSealed
  have hSame := hFixed.2 _ _ hLater
  exact ⟨db, _, hBefore, hSealed, (hFixed.1 .build trivial).1,
    hApart, hLater, hSame.1, hSame.2.1 hApart⟩

------------------------------------------------------------
-- Calls That Tie
------------------------------------------------------------

/-
  A caller of one method under two signatures that tie: one has
  no package, and the package of the other has no name. Either
  call can run the method of a class below.
-/
def tiedCalls : List Addition := [
  .binding "C" (.record {
    name := "C"
    superClass := some "A"
    methods := [{ owner := "C", name := "f" }] }),
  .facts {
    signature := { owner := "M", name := "g" }
    calls := [
      { owner := "A", name := "f" },
      { owner := "A", name := "f", package := some "" }] }]

/- Either of the two can be kept in the place of both. -/
theorem exists_built_tiedCalls :
    ∃ db records, BuiltFrom {} tiedCalls db ∧
      db.BuiltGraph records ∧
      ∃ kept ∈ db.dispatches,
        db.edgeBetween kept.callee kept.caller = some kept ∧
          ∃ other ∈ db.dispatches,
            other ≠ kept ∧ Ties kept other := by
  have hSample :
      ∃ db, BuiltFrom {} tiedCalls db ∧
        db.facts.get? { owner := "M", name := "g" } = some {
          signature := { owner := "M", name := "g" }
          calls := [
            { owner := "A", name := "f" },
            { owner := "A", name := "f",
              package := some "" }] } ∧
        ∀ package, package = none ∨ package = some "" →
          db.CallsAs { owner := "M", name := "g" }
            { owner := "A", name := "f", package }
            { owner := "C", name := "f" } := by
    refine ⟨_, ⟨_, rfl, rfl, rfl⟩, rfl, ?_⟩
    intro package hPackage
    refine ⟨_, rfl, ?_, .inr ⟨"C", _, rfl, ?_, ?_⟩⟩
    · simpa using hPackage
    · exact .single
        ⟨_, rfl, .inl ⟨rfl, by simp⟩, by simp⟩
    · exact ⟨by simp, rfl, rfl⟩
  rcases hSample with ⟨db, hBuilt, hFacts, hCalls⟩
  rcases hBuilt.builtGraph with ⟨records, hGraph⟩
  have hNames : ∀ a ∈ tiedCalls, a.OwnName := by
    simp [tiedCalls, Addition.OwnName, ClassBinding.read]
  have hDispatched :=
    hGraph.mem_dispatches_iff (hBuilt.ownNames hNames)
  rcases hGraph.exists_kept
      ((hDispatched ⟨_, _, _⟩).mpr (hCalls none (.inl rfl))) with
    ⟨⟨caller, callee, written⟩, hKept, hPlace, hCallee,
      hCaller, -⟩
  cases hCallee
  cases hCaller
  refine ⟨db, records, hBuilt, hGraph, _, hKept, hPlace, ?_⟩
  -- the kept call is one of the two, and the other one ties
  rcases (hDispatched _).mp hKept with
    ⟨f, hOwnFacts, hWritten, -⟩
  rw [hFacts] at hOwnFacts
  cases hOwnFacts
  simp only [List.mem_cons, List.not_mem_nil, or_false]
    at hWritten
  rcases hWritten with rfl | rfl
  · exact ⟨_, (hDispatched ⟨_, _, _⟩).mpr
      (hCalls (some "") (.inr rfl)), by decide, by decide⟩
  · exact ⟨_, (hDispatched ⟨_, _, _⟩).mpr
      (hCalls none (.inl rfl)), by decide, by decide⟩

/-
  Where calls tie, the one in the index depends on how they are
  listed when the last stage runs again. The stage that gives
  facts to known methods is not refused either.
-/
theorem stages_move_tied_calls :
    ∃ db after,
      (empty {}).Performs (tiedCalls.map .add ++ [.build]) db ∧
      db.isSealed = true ∧
      db.Performs [.stage .callers] after ∧
      after.callers ≠ db.callers ∧
      db.reply (.stage .facts) = .ok .done := by
  rcases exists_built_tiedCalls with
    ⟨db, records, hBuilt, hGraph, kept, hKept, hPlace, other,
      hOther, hDistinct, hTies⟩
  let listed : Database :=
    { db with dispatches := kept :: db.dispatches.erase kept }
  have hListed : db.Relisted listed :=
    ⟨.refl _, List.perm_cons_erase hKept, rfl⟩
  refine ⟨db, listed.perform (.stage .callers), ?_,
    hGraph.isSealed, .next hListed (.done (.refl _)), ?_, rfl⟩
  · rw [← hBuilt.performAll_eq]
    exact performs_performAll _ _
  · intro hSame
    rw [edgeBetween_eq, ← hSame] at hPlace
    exact edgeIn_sorted_cons_ne _ hGraph.nodup.not_mem_erase
      ((List.mem_erase_of_ne hDistinct).mpr hOther) hTies hPlace

end Database

end Uncaught
