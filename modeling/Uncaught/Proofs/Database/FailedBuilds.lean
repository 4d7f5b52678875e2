import Uncaught.Proofs.Database.Lifecycle
import Uncaught.Proofs.Database.Sameness

/-
  A build that fails does no harm. It leaves bare facts of
  known methods behind and nothing else, and the build that
  succeeds in the end would have added these itself. So the
  failed builds of a run can be left out.

  Key definitions include:
    * `Operation.isBuild`
    * `Database.Completes`

  Main declarations:
    * `Database.build_of_failure`
    * `Database.Completes.build`
    * `Database.Completes.performAll`
    * `Database.BuiltGraph.sameAnalysis`
    * `Database.failed_builds_harmless`
-/

namespace Uncaught

namespace Operation

/- Whether an operation is a build. -/
def isBuild : Operation → Bool
  | build => true
  | _ => false

/- What an operation adds. -/
def addition? : Operation → Option Addition
  | add a => some a
  | _ => none

theorem addition?_eq_some_iff
    {op : Operation}
    {a : Addition} :
    op.addition? = some a ↔ op = .add a := by
  cases op <;> simp [addition?]

/- Without the builds, only additions fill a database. -/
theorem filter_not_isBuild
    {ops : List Operation}
    (hFills : ∀ op ∈ ops, op.Fills) :
    ops.filter (!·.isBuild) =
      (ops.filterMap addition?).map add := by
  induction ops with
  | nil => rfl
  | cons op rest ih =>
      have hRest := ih fun op hop =>
        hFills op (List.mem_cons_of_mem _ hop)
      have hFirst := hFills op List.mem_cons_self
      cases op with
      | add a =>
          have hSome : addition? (add a) = some a := rfl
          rw [List.filter_cons_of_pos rfl,
            List.filterMap_cons_some hSome, List.map_cons,
            hRest]
      | build =>
          rw [List.filter_cons_of_neg Bool.false_ne_true,
            List.filterMap_cons_none rfl, hRest]
      | assign s f => cases hFirst
      | change s g => cases hFirst
      | stage s => cases hFirst
      | ask q => cases hFirst

end Operation

namespace Database

variable {db plain after : Database}

------------------------------------------------------------
-- One Failed Build
------------------------------------------------------------

/-
  A build fails at a class that cannot be read, and has
  completed the facts by then.
-/
theorem build_of_failure
    (hOpen : db.isSealed = false)
    (hFailure : db.build.failure ≠ none) :
    ∃ e facts,
      db.build.failure = some (.record e) ∧
      db.build.database = { db with facts } ∧
      ∀ s, facts.get? s =
        (db.facts.get? s).or
          (if s ∈ db.bound then some { signature := s }
            else none) := by
  cases hRecords : db.classes.values.mapM ClassBinding.read with
  | ok records =>
      refine absurd
        ((build_failure_eq_none_iff hOpen).mpr ⟨records, ?_⟩)
        hFailure
      rw [Database.records, hRecords]
      rfl
  | error e =>
      have hStage : db.runStage .facts = .ok (_, _) := rfl
      rcases completeFacts_spec hStage with
        ⟨facts, hAfter, hFacts⟩
      rw [hAfter] at hStage
      have hLink :
          { db with facts }.linkClasses =
            .error (.record e) := by
        unfold linkClasses Database.records
        rw [hRecords]
        rfl
      have hRun :
          ∃ events, runStages db [] stages =
            ⟨{ db with facts }, events, some (.record e)⟩ := by
        rw [stages, runStages_cons_of_ok hStage, runStages,
          runStage, hLink]
        exact ⟨_, rfl⟩
      rcases hRun with ⟨events, hRun⟩
      refine ⟨e, facts, ?_, ?_, hFacts⟩
      · rw [build, if_neg (by simp [hOpen]), hRun]
      · rw [build, if_neg (by simp [hOpen]), hRun]

------------------------------------------------------------
-- Runs With And Without Failed Builds
------------------------------------------------------------

/- An open database after something is put into it. -/
def put
    (db : Database) : Addition → Database
  | .facts f =>
      { db with facts := db.facts.insert f.signature f }
  | .known s =>
      { db with
        bound :=
          if s ∈ db.bound then db.bound
          else db.bound ++ [s] }
  | .binding name b =>
      { db with classes := db.classes.insert name b }

theorem perform_add
    (hOpen : db.isSealed = false)
    (a : Addition) :
    db.perform (.add a) = db.put a := by
  cases a <;>
    simp [perform, Operation.step?, step, add, addMethod,
      addBound, addClass, checkOpen, hOpen, put, bind,
      Except.bind, pure, Except.pure, Except.toOption]

/-
  A database has what another one has, and in addition bare
  facts of some methods that are known there.
-/
def Completes
    (db plain : Database) : Prop :=
  ∃ facts : Table Signature MethodFacts,
    db = { plain with facts } ∧
      ∀ s, facts.get? s = plain.facts.get? s ∨
        (plain.facts.get? s = none ∧ s ∈ plain.bound ∧
          facts.get? s = some { signature := s })

namespace Completes

theorem refl
    (db : Database) :
    Completes db db :=
  ⟨db.facts, rfl, fun _ => .inl rfl⟩

/- Additions come to both in the same way. -/
theorem put
    (hCompletes : Completes db plain)
    (a : Addition) :
    Completes (db.put a) (plain.put a) := by
  rcases hCompletes with ⟨facts, rfl, hFacts⟩
  cases a with
  | facts f =>
      refine ⟨facts.insert f.signature f, rfl, ?_⟩
      intro s
      simp only [Database.put, Table.get?_insert]
      split
      · exact .inl rfl
      · exact hFacts s
  | known t =>
      refine ⟨facts, rfl, ?_⟩
      intro s
      rcases hFacts s with hSame | ⟨hNone, hKnown, hBare⟩
      · exact .inl hSame
      · refine .inr ⟨hNone, ?_, hBare⟩
        simp only [Database.put]
        split
        · exact hKnown
        · exact List.mem_append_left _ hKnown
  | binding name b => exact ⟨facts, rfl, hFacts⟩

/- A failed build completes the facts, if they were not yet. -/
theorem build
    (hOpen : db.isSealed = false)
    (hCompletes : Completes db plain)
    (hFailure : db.build.failure ≠ none) :
    Completes db.build.database plain := by
  rcases build_of_failure hOpen hFailure with
    ⟨-, completed, -, hBuild, hCompleted⟩
  rcases hCompletes with ⟨facts, rfl, hFacts⟩
  refine ⟨completed, hBuild, ?_⟩
  intro s
  have hLookup :
      completed.get? s =
        (facts.get? s).or
          (if s ∈ plain.bound then some { signature := s }
            else none) :=
    hCompleted s
  rw [hLookup]
  rcases hFacts s with hSame | ⟨hNone, hKnown, hBare⟩
  · rw [hSame]
    cases plain.facts.get? s with
    | some f => exact .inl rfl
    | none =>
        by_cases hKnown : s ∈ plain.bound
        · exact .inr ⟨rfl, hKnown, by simp [hKnown]⟩
        · exact .inl (by simp [hKnown])
  · exact .inr ⟨hNone, hKnown, by simp [hBare]⟩

/- Both have the same to be built of in the end. -/
theorem or_bare_eq
    (hCompletes : Completes db plain)
    (s : Signature) :
    (db.facts.get? s).or
        (if s ∈ db.bound then some { signature := s }
          else none) =
      (plain.facts.get? s).or
        (if s ∈ plain.bound then some { signature := s }
          else none) := by
  rcases hCompletes with ⟨facts, rfl, hFacts⟩
  rcases hFacts s with hSame | ⟨hNone, hKnown, hBare⟩
  · simp only [hSame]
  · simp [hNone, hKnown, hBare]

end Completes

/- A seal is never broken. -/
theorem open_of_performAll
    {ops : List Operation}
    (hOpen : (db.performAll ops).isSealed = false) :
    db.isSealed = false := by
  induction ops generalizing db with
  | nil => exact hOpen
  | cons op rest ih =>
      have hNext : ¬(db.perform op).isSealed = true := by
        rw [Bool.not_eq_true]
        exact ih hOpen
      rw [isSealed_perform_iff, not_or, Bool.not_eq_true] at hNext
      exact hNext.1

/-
  As long as no build succeeds, a run does what it does without
  its builds, apart from completing facts.
-/
theorem Completes.performAll
    {ops : List Operation}
    (hFills : ∀ op ∈ ops, op.Fills)
    (hCompletes : Completes db plain)
    (hOpen : (db.performAll ops).isSealed = false) :
    Completes (db.performAll ops)
      (plain.performAll (ops.filter (!·.isBuild))) := by
  induction ops generalizing db plain with
  | nil => exact hCompletes
  | cons op rest ih =>
      have hRest : ∀ op ∈ rest, op.Fills := fun op hop =>
        hFills op (List.mem_cons_of_mem _ hop)
      have hNow := open_of_performAll hOpen
      have hPlain : plain.isSealed = false := by
        rcases hCompletes with ⟨facts, rfl, -⟩
        exact hNow
      cases op with
      | add a =>
          rw [List.filter_cons_of_pos rfl]
          refine ih hRest ?_ hOpen
          rw [perform_add hNow, perform_add hPlain]
          exact hCompletes.put a
      | build =>
          rw [List.filter_cons_of_neg Bool.false_ne_true]
          refine ih hRest (hCompletes.build hNow ?_) hOpen
          have hRestOpen :
              (db.build.database.performAll rest).isSealed =
                false := hOpen
          intro hSuccess
          have hSealed :=
            (isSealed_build_iff db).mpr (.inr hSuccess)
          rw [open_of_performAll hRestOpen] at hSealed
          cases hSealed
      | assign s f => cases hFills _ List.mem_cons_self
      | change s g => cases hFills _ List.mem_cons_self
      | stage s => cases hFills _ List.mem_cons_self
      | ask q => cases hFills _ List.mem_cons_self

theorem hierarchy_of_fill
    {settings : Settings}
    {additions : List Addition}
    (hFill : fill settings additions = .ok db) :
    db.hierarchy = none := by
  apply foldlM_preserves
    (P := fun db => db.hierarchy = none) _ _ hFill
  · rfl
  · intro before a _ after hBefore hAdd
    rcases add_cases hAdd with
      ⟨f, -, hAfter⟩ | ⟨s, -, hAfter⟩ | ⟨name, b, -, hAfter⟩
    all_goals
      rw [hAfter]
      exact hBefore

/- Additions that are performed fill the empty database. -/
theorem fill_eq_performAll
    (settings : Settings)
    (additions : List Addition) :
    fill settings additions =
      .ok ((empty settings).performAll
        (additions.map .add)) := by
  rcases exists_fill settings additions with ⟨filled, hFill⟩
  rw [hFill, ← foldl_step_of_foldlM_add hFill,
    Database.performAll, List.foldl_map, List.foldl_map]
  rfl

------------------------------------------------------------
-- Equal Facts And Classes
------------------------------------------------------------

variable {records others : List ClassRecord}

/- The methods of calls that can run have named packages. -/
theorem PackagesNamed.of_mem_dispatches
    (hNamed : db.PackagesNamed)
    (hGraph : db.GraphOf records)
    {e : DispatchEdge}
    (hMem : e ∈ db.dispatches) :
    e.caller.NamedPackage ∧ e.written.NamedPackage ∧
      e.callee.NamedPackage := by
  rcases (hGraph.mem_dispatches e).mp hMem with
    ⟨call, hCall, hRuns⟩
  rcases (mem_dispatch_iff _ _ _).mp hRuns with
    ⟨hCaller, hWritten, hCallee⟩
  rcases (mem_writtenCalls_iff _ _).mp hCall with
    ⟨f, hFacts, hWrites⟩
  have hFact := hNamed.facts call.caller f hFacts
  have hNamedCallee := hFact.2 call.callee hWrites
  rw [hCaller, hWritten]
  refine ⟨hFact.1, hNamedCallee, ?_⟩
  rcases hCallee with hSame | hOverrides
  · rw [hSame]
    exact hNamedCallee
  · rcases (Hierarchy.mem_overriding_iff _ _ _ _).mp
        hOverrides with
      ⟨sub, c, -, hRecord, hMethod, -⟩
    rcases List.mem_map.mp
        (Table.mem_of_get?_ofList hRecord) with
      ⟨d, hRead, hEntry⟩
    cases hEntry
    rcases (mem_records_iff hGraph.records_eq c).mp hRead with
      ⟨name, b, hClass, hBinding⟩
    exact hNamed.methods name c
      ((recordOf_eq_some_iff db name c).mpr
        ⟨b, hClass, hBinding⟩) e.callee hMethod

/- With named packages, calls tie only if they are equal. -/
theorem PackagesNamed.eq_of_edgeOrder_eq
    (hNamed : db.PackagesNamed)
    (hGraph : db.GraphOf records)
    {a b : DispatchEdge}
    (hLeft : a ∈ db.dispatches)
    (hRight : b ∈ db.dispatches)
    (hTie : edgeOrder a b = .eq) :
    a = b := by
  have hA := hNamed.of_mem_dispatches hGraph hLeft
  have hB := hNamed.of_mem_dispatches hGraph hRight
  simp only [edgeOrder, compareLex, Ordering.then_eq_eq] at hTie
  have hCallee :=
    Signature.eq_of_order_eq_eq hA.2.2 hB.2.2 hTie.1
  have hCaller :=
    Signature.eq_of_order_eq_eq hA.1 hB.1 hTie.2.1
  have hWritten :=
    Signature.eq_of_order_eq_eq hA.2.1 hB.2.1 hTie.2.2
  cases a
  cases b
  simp_all

/-
  Databases that were built with the same settings and classes,
  and in which the same facts stand under each signature, have
  the same analysis. The classes need not stand under the names
  of their records.
-/
theorem BuiltGraph.sameAnalysis
    {other : Database}
    (hLeft : db.BuiltGraph records)
    (hRight : other.BuiltGraph others)
    (hSettings : db.settings = other.settings)
    (hClasses : db.classes = other.classes)
    (hFacts : ∀ s, db.facts.get? s = other.facts.get? s)
    (hNamed : db.PackagesNamed) :
    db.hierarchy = other.hierarchy ∧
      SameAnalysis db other := by
  have hRecords : records = others := by
    have hLeftRecords := hLeft.records_eq
    have hRightRecords := hRight.records_eq
    unfold Database.records at hLeftRecords hRightRecords
    rw [hClasses, hRightRecords] at hLeftRecords
    exact (Except.ok.inj hLeftRecords).symm
  subst hRecords
  have hHierarchy : db.hierarchy = other.hierarchy := by
    rw [hLeft.hierarchy_eq, hRight.hierarchy_eq]
  have hSame : SameContent db other := by
    refine ⟨hSettings, ?_, ?_, ?_⟩
    · intro s
      rw [hFacts s]
      cases other.facts.get? s with
      | none => exact .none
      | some f => exact .some (.refl f)
    · intro name
      rw [hClasses]
    · intro name
      unfold recordOf
      rw [hClasses]
      cases (other.classes.get? name).bind
          (·.read.toOption) with
      | none => exact .none
      | some c => exact .some (.refl c)
  have hDispatches :
      SameMembers db.dispatches other.dispatches := by
    intro e
    rw [hLeft.mem_dispatches, hRight.mem_dispatches]
    constructor
    · rintro ⟨call, hCall, hRuns⟩
      exact ⟨call, hSame.mem_writtenCalls hCall, hRuns⟩
    · rintro ⟨call, hCall, hRuns⟩
      exact ⟨call, hSame.symm.mem_writtenCalls hCall, hRuns⟩
  have hKeys := hSame.sort_keys_eq hNamed.apart
  have hCallers : db.callers = other.callers := by
    apply hLeft.callers_eq_of_sameMembers hRight hKeys
      hDispatches
    intro a ha b hb
    exact hNamed.eq_of_edgeOrder_eq hLeft.toGraphOf ha hb
  refine ⟨hHierarchy, hSame.sameAnalysis_of_callers_eq hLeft
    hRight hKeys hDispatches hCallers ?_⟩
  funext thrown caught
  unfold takes
  rw [hClasses, hHierarchy, hSettings]

namespace Completes

theorem build_failure_eq_none
    (hCompletes : Completes db plain)
    (hOpen : plain.isSealed = false)
    (hSuccess : db.build.failure = none) :
    plain.build.failure = none := by
  rcases build_spec hSuccess with
    ⟨-, records, -, -, -, hRecords, -⟩
  rcases hCompletes with ⟨facts, rfl, -⟩
  exact (build_failure_eq_none_iff hOpen).mpr
    ⟨records, hRecords⟩

/- Built in the end, both have the same analysis. -/
theorem sameAnalysis_build
    (hCompletes : Completes db plain)
    (hUnbuilt : plain.Unbuilt)
    (hSuccess : db.build.failure = none)
    (hNamed : plain.build.database.PackagesNamed) :
    (∀ s, plain.build.database.facts.get? s =
      db.build.database.facts.get? s) ∧
    plain.build.database.hierarchy =
      db.build.database.hierarchy ∧
    SameAnalysis plain.build.database db.build.database := by
  have hPlain :=
    hCompletes.build_failure_eq_none hUnbuilt.isOpen hSuccess
  have hOrBare := hCompletes.or_bare_eq
  rcases hUnbuilt.builtGraph hPlain with ⟨_, hLeft⟩
  have hRight : ∃ others, db.build.database.BuiltGraph others := by
    apply Unbuilt.builtGraph _ hSuccess
    rcases hCompletes with ⟨facts, rfl, -⟩
    exact ⟨hUnbuilt.isOpen, hUnbuilt.calls,
      hUnbuilt.dispatches, hUnbuilt.callers⟩
  rcases hRight with ⟨_, hRight⟩
  rcases build_spec hPlain with
    ⟨-, _, facts, _, _, -, hFacts, -, -, hBuild⟩
  rcases build_spec hSuccess with
    ⟨-, _, others, _, _, -, hOthers, -, -, hBuildOther⟩
  have hSameFacts :
      ∀ s, plain.build.database.facts.get? s =
        db.build.database.facts.get? s := by
    intro s
    rw [hBuild, hBuildOther]
    change facts.get? s = others.get? s
    rw [hFacts s, hOthers s, hOrBare s]
  refine ⟨hSameFacts, hLeft.sameAnalysis hRight ?_ ?_
    hSameFacts hNamed⟩
  · rw [hBuild, hBuildOther]
    rcases hCompletes with ⟨_, rfl, -⟩
    rfl
  · rw [hBuild, hBuildOther]
    rcases hCompletes with ⟨_, rfl, -⟩
    rfl

end Completes

------------------------------------------------------------
-- Failed Builds
------------------------------------------------------------

theorem performAll_append
    (db : Database)
    (first second : List Operation) :
    db.performAll (first ++ second) =
      (db.performAll first).performAll second :=
  List.foldl_append

/- A build that is reported done has met no failure. -/
theorem reply_build_eq_done_iff
    (db : Database) :
    db.reply .build = .ok .done ↔ db.build.failure = none := by
  cases hFailure : db.build.failure <;> simp [reply, hFailure]

/- Additions to a sealed database change nothing. -/
theorem performAll_add_of_sealed
    (hSealed : db.isSealed = true)
    (later : List Addition) :
    db.performAll (later.map .add) = db := by
  induction later with
  | nil => rfl
  | cons a rest ih =>
      change (db.perform (.add a)).performAll
        (rest.map .add) = db
      rw [(reply_of_fills hSealed (.add a) trivial).2, ih]

/-
  Before the first build that succeeds there is neither a graph
  nor a hierarchy.
-/
theorem unbuilt_performAll
    {settings : Settings}
    {ops : List Operation}
    (hFills : ∀ op ∈ ops, op.Fills)
    (hOpen : ((empty settings).performAll ops).isSealed = false) :
    ((empty settings).performAll ops).Unbuilt ∧
      ((empty settings).performAll ops).hierarchy = none := by
  have hCompletes :=
    (Completes.refl (empty settings)).performAll hFills hOpen
  rw [Operation.filter_not_isBuild hFills] at hCompletes
  have hFill :=
    fill_eq_performAll settings
      (ops.filterMap Operation.addition?)
  have hUnbuilt := unbuilt_of_fill hFill
  have hNone := hierarchy_of_fill hFill
  rcases hCompletes with ⟨facts, hSame, -⟩
  rw [hSame]
  exact ⟨⟨hUnbuilt.isOpen, hUnbuilt.calls,
    hUnbuilt.dispatches, hUnbuilt.callers⟩, hNone⟩

/- As long as a run is open, it has been open all the time. -/
theorem open_of_prefix
    {part ops : List Operation}
    (hPart : part <+: ops)
    (hOpen : (db.performAll ops).isSealed = false) :
    (db.performAll part).isSealed = false := by
  rcases hPart with ⟨rest, rfl⟩
  rw [performAll_append] at hOpen
  exact open_of_performAll hOpen

/- A build that leaves a database open fails at a class. -/
theorem reply_build_of_open
    (hOpen : db.build.database.isSealed = false) :
    ∃ e, db.reply .build = .error (.record e) := by
  have hNotSealed :=
    mt (isSealed_build_iff db).mpr (by simp [hOpen])
  rw [not_or, Bool.not_eq_true] at hNotSealed
  rcases build_of_failure hNotSealed.1 hNotSealed.2 with
    ⟨e, -, hFailure, -, -⟩
  exact ⟨e, by simp [reply, hFailure]⟩

/-
  If the last build of a run succeeds, each one before it has
  failed at a class that cannot be read. It has left the
  database open, without calls, hierarchy and index. What the
  last build makes is the same, to every question, as if the
  failed builds had not been tried. What is added after it is
  refused.
-/
theorem failed_builds_harmless
    (settings : Settings)
    {before : List Operation}
    (hFills : ∀ op ∈ before, op.Fills)
    (hPackages :
      ∀ a, .add a ∈ before →
        ∀ s ∈ a.signatures, s.NamedPackage)
    (hSuccess :
      ((empty settings).performAll before).reply .build =
        .ok .done)
    (later : List Addition) :
    (∀ part, part ++ [.build] <+: before →
      ∃ e failed,
        ((empty settings).performAll part).reply .build =
          .error (.record e) ∧
        (empty settings).performAll (part ++ [.build]) =
          failed ∧
        failed.Unbuilt ∧ failed.hierarchy = none) ∧
    ∃ clean db,
      (empty settings).performAll
          (before.filter (!·.isBuild)
            ++ .build :: later.map .add) = clean ∧
      (empty settings).performAll
          (before ++ .build :: later.map .add) = db ∧
      clean.isSealed = true ∧ db.isSealed = true ∧
      (∀ s, clean.facts.get? s = db.facts.get? s) ∧
      clean.hierarchy = db.hierarchy ∧
      SameAnalysis clean db := by
  rw [reply_build_eq_done_iff] at hSuccess
  have hOpen := (build_spec hSuccess).1
  constructor
  · intro part hPart
    have hPartFills : ∀ op ∈ part ++ [.build], op.Fills :=
      fun op hop => hFills op (hPart.subset hop)
    have hStillOpen := open_of_prefix hPart hOpen
    have hUnbuilt := unbuilt_performAll hPartFills hStillOpen
    rw [performAll_append] at hStillOpen
    rcases reply_build_of_open hStillOpen with ⟨e, hReply⟩
    exact ⟨e, _, hReply, rfl, hUnbuilt⟩
  · have hCompletes :=
      (Completes.refl (empty settings)).performAll hFills hOpen
    have hFill :=
      fill_eq_performAll settings
        (before.filterMap Operation.addition?)
    rw [← Operation.filter_not_isBuild hFills] at hFill
    have hClean :=
      hCompletes.build_failure_eq_none
        (unbuilt_of_fill hFill).isOpen hSuccess
    have hBuilt : BuiltFrom settings _ _ :=
      ⟨_, hFill, hClean, rfl⟩
    have hNamed := hBuilt.packagesNamed (by
      intro a ha
      rcases List.mem_filterMap.mp ha with ⟨op, hop, hAdds⟩
      rw [Operation.addition?_eq_some_iff] at hAdds
      subst hAdds
      exact hPackages a hop)
    have hCleanSealed :=
      (isSealed_build_iff _).mpr (.inr hClean)
    have hSealed := (isSealed_build_iff _).mpr (.inr hSuccess)
    refine ⟨_, _, ?_, ?_, hCleanSealed, hSealed,
      hCompletes.sameAnalysis_build (unbuilt_of_fill hFill)
        hSuccess hNamed⟩
    · rw [performAll_append]
      exact performAll_add_of_sealed hCleanSealed later
    · rw [performAll_append]
      exact performAll_add_of_sealed hSealed later

/-
  Two builds that fail, since a class has no name. After the
  first one the facts of a known method are added, after the
  second one the class is replaced.
-/
def triedTwice : List Operation := [
  .add (.known { owner := "K", name := "f" }),
  .add (.binding "K" (.raw (.obj []))),
  .add (.facts {
    signature := { owner := "M", name := "g" }
    calls := [{ owner := "K", name := "f" }] }),
  .build,
  .add (.facts {
    signature := { owner := "K", name := "f" }
    thrown := ["E"] }),
  .add (.known { owner := "K", name := "h" }),
  .build,
  .add (.binding "K" (.record { name := "K" }))]

/- The chains are those of the run without failed builds. -/
theorem failed_builds_harmless_triedTwice :
    ((empty {}).performAll triedTwice).reply .build =
      .ok .done ∧
    (∃ e failed,
      ((empty {}).performAll (triedTwice.take 3)).reply .build =
        .error (.record e) ∧
      (empty {}).performAll (triedTwice.take 4) = failed ∧
      failed.facts.get? { owner := "K", name := "f" } =
        some { signature := { owner := "K", name := "f" } } ∧
      failed.Unbuilt ∧ failed.hierarchy = none) ∧
    ∃ clean db,
      (empty {}).performAll
        (triedTwice.filter (!·.isBuild) ++ [.build]) = clean ∧
      (empty {}).performAll (triedTwice ++ [.build]) = db ∧
      SameAnalysis clean db := by
  have hSuccess :
      ((empty {}).performAll triedTwice).reply .build =
        .ok .done := rfl
  have hFills : ∀ op ∈ triedTwice, op.Fills := by
    simp [triedTwice, Operation.Fills]
  have hPackages :
      ∀ a, .add a ∈ triedTwice →
        ∀ s ∈ a.signatures, s.NamedPackage := by
    intro a ha
    simp only [triedTwice, List.mem_cons, List.not_mem_nil,
      Operation.add.injEq, reduceCtorEq, or_false,
      false_or] at ha
    rcases ha with rfl | rfl | rfl | rfl | rfl | rfl <;> decide
  rcases failed_builds_harmless {} hFills hPackages hSuccess
      [] with
    ⟨hFailed, clean, db, hClean, hDb, -, -, -, -, hSame⟩
  refine ⟨hSuccess, ?_, clean, db, hClean, hDb, hSame⟩
  rcases hFailed (triedTwice.take 3)
      ⟨triedTwice.drop 4, rfl⟩ with
    ⟨e, failed, hReply, rfl, hUnbuilt, hNone⟩
  exact ⟨e, _, hReply, rfl, rfl, hUnbuilt, hNone⟩

end Database

end Uncaught
