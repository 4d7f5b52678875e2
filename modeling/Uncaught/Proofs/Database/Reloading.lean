import Uncaught.Proofs.Database.Listing
import Uncaught.Proofs.Database.Runs
import Uncaught.Proofs.Database.Sameness

/-
  What a snapshot is good for. Whatever was done to a database,
  its snapshot is read back, and is written again to the last
  character, where no methods tie. Building what was read gives
  the analysis that building the database itself gives.

  Key definitions include:
    * `Addition.Sets`
    * `Step.Sets`
    * `Database.Storable`
    * `Database.called`

  Main declarations:
    * `Database.storable_run`
    * `Database.snapshot_roundTrip`
    * `Database.tied_calls_swap`
    * `Database.Restored.sameContent_build`
    * `Database.snapshot_sameAnalysis`
-/

namespace Uncaught

------------------------------------------------------------
-- Steps
------------------------------------------------------------

/- An addition whose lists have no repetitions. -/
def Addition.Sets : Addition → Prop
  | .facts f => f.Sets
  | .known _ => True
  | .binding _ b => ∀ c, b.read = .ok c → c.Sets

/-
  A step that brings in lists without repetitions only, and
  facts only under their own signature.
-/
def Step.Sets : Step → Prop
  | .add a => a.Sets
  | .assign s f => f.signature = s ∧ f.Sets
  | .change _ g =>
      ∀ f : MethodFacts, f.Sets →
        (g f).signature = f.signature ∧ (g f).Sets
  | .stage _ => True
  | .build => True
  | .load _ => True

theorem MethodFacts.sets_bare
    (s : Signature) :
    ({ signature := s } : MethodFacts).Sets where
  calls := .nil
  thrown := .nil
  handlers := by
    intro handler hMem
    cases hMem

namespace Database

/-
  What a snapshot needs of a database: facts stand under their
  own signatures, lists have no repetitions, and each class was
  added by a step or is bound to a record with its name.
-/
structure Storable
    (steps : List Step)
    (db : Database) : Prop where
  ownFacts : db.OwnFacts
  sets : db.Sets
  classes :
    ∀ name b, db.classes.get? name = some b →
      .add (.binding name b) ∈ steps ∨
        ∃ c, b.read = .ok c ∧ c.name = name

variable {db after : Database} {steps : List Step}
variable {settings : Settings}

theorem storable_empty
    (steps : List Step)
    (settings : Settings) :
    (empty settings).Storable steps := by
  refine ⟨?_, ⟨?_, ?_, ?_⟩, ?_⟩
  · intro s f hFacts
    cases hFacts
  · intro s f hFacts
    cases hFacts
  · exact .nil
  · intro name b c hClass
    cases hClass
  · intro name b hClass
    cases hClass

namespace Storable

/- Facts may change to sets under their own signature. -/
theorem of_facts
    (hStorable : db.Storable steps)
    (hFacts :
      ∀ s f, after.facts.get? s = some f →
        db.facts.get? s = some f ∨ f.signature = s ∧ f.Sets)
    (hBound : after.bound = db.bound)
    (hClasses : after.classes = db.classes) :
    after.Storable steps := by
  refine ⟨?_, ⟨?_, ?_, ?_⟩, ?_⟩
  · intro s f hGet
    rcases hFacts s f hGet with hOld | ⟨hOwn, -⟩
    · exact hStorable.ownFacts s f hOld
    · exact hOwn
  · intro s f hGet
    rcases hFacts s f hGet with hOld | ⟨-, hSets⟩
    · exact hStorable.sets.facts s f hOld
    · exact hSets
  · rw [hBound]
    exact hStorable.sets.bound
  · rw [hClasses]
    exact hStorable.sets.classes
  · rw [hClasses]
    exact hStorable.classes

theorem add
    {a : Addition}
    (hStorable : db.Storable steps)
    (hMem : .add a ∈ steps)
    (hSets : a.Sets)
    (hAdd : db.add a = .ok after) :
    after.Storable steps := by
  rcases add_cases hAdd with
    ⟨f, rfl, rfl⟩ | ⟨s, rfl, hAfter⟩ | ⟨name, b, rfl, rfl⟩
  · refine hStorable.of_facts ?_ rfl rfl
    intro s g hGet
    rcases Table.get?_insert_cases hGet with
      ⟨rfl, rfl⟩ | hOld
    · exact .inr ⟨rfl, hSets⟩
    · exact .inl hOld
  · have hBound : after.bound.Nodup := by
      rw [bound_of_add hAdd]
      split
      · exact hStorable.sets.bound
      · next hNew =>
          exact List.nodup_append.mpr
            ⟨hStorable.sets.bound, by simp, by grind⟩
    rw [hAfter]
    exact ⟨hStorable.ownFacts,
      ⟨hStorable.sets.facts, hBound, hStorable.sets.classes⟩,
      hStorable.classes⟩
  · refine ⟨hStorable.ownFacts,
      ⟨hStorable.sets.facts, hStorable.sets.bound, ?_⟩, ?_⟩
    · intro name' b' c hClass hRead
      rcases Table.get?_insert_cases hClass with
        ⟨rfl, rfl⟩ | hOld
      · exact hSets c hRead
      · exact hStorable.sets.classes name' b' c hOld hRead
    · intro name' b' hClass
      rcases Table.get?_insert_cases hClass with
        ⟨rfl, rfl⟩ | hOld
      · exact .inl hMem
      · exact hStorable.classes name' b' hOld

theorem runStage
    {stage : Stage}
    {events : List Event}
    (hStorable : db.Storable steps)
    (hStage : db.runStage stage = .ok (after, events)) :
    after.Storable steps := by
  rcases snapshot_runStage hStage with ⟨-, hBound, hClasses⟩
  refine hStorable.of_facts ?_ hBound hClasses
  intro s f hGet
  rcases facts_of_runStage hStage hGet with hOld | rfl
  · exact .inl hOld
  · exact .inr ⟨rfl, MethodFacts.sets_bare s⟩

end Storable

/- A database that is read from a snapshot can be written. -/
theorem storable_of_ofJson
    {snapshot : Json}
    (steps : List Step)
    (hLoad : ofJson settings snapshot = .ok after) :
    after.Storable steps := by
  rcases ofJson_spec hLoad with
    ⟨methods, bound, classes, hMethods, hClasses, rfl⟩
  have hFacts :
      ∀ s f,
        (Table.ofList
          (methods.map fun f => (f.signature, f))).get? s =
            some f →
          f ∈ methods ∧ f.signature = s := by
    intro s f hGet
    rcases List.mem_map.mp (Table.mem_of_get?_ofList hGet) with
      ⟨g, hMem, hEntry⟩
    cases hEntry
    exact ⟨hMem, rfl⟩
  have hRecords :
      ∀ name b,
        (Table.ofList (classes.map fun c =>
          (c.name, ClassBinding.record c))).get? name =
            some b →
          ∃ c ∈ classes, b = .record c ∧ c.name = name := by
    intro name b hGet
    rcases List.mem_map.mp (Table.mem_of_get?_ofList hGet) with
      ⟨c, hMem, hEntry⟩
    cases hEntry
    exact ⟨c, hMem, rfl, rfl⟩
  refine ⟨?_, ⟨?_, nodup_eraseDups bound, ?_⟩, ?_⟩
  · intro s f hGet
    exact (hFacts s f hGet).2
  · intro s f hGet
    rcases hMethods f (hFacts s f hGet).1 with ⟨v, hRead⟩
    exact MethodFacts.sets_of_ofJson hRead
  · intro name b c hClass hRead
    rcases hRecords name b hClass with ⟨d, hMem, rfl, -⟩
    cases hRead
    rcases hClasses c hMem with ⟨v, hRecord⟩
    exact ClassRecord.sets_of_ofJson hRecord
  · intro name b hClass
    rcases hRecords name b hClass with ⟨c, -, rfl, hName⟩
    exact .inr ⟨c, rfl, hName⟩

/- Each step keeps a database that can be written. -/
theorem Storable.step
    (hStorable : db.Storable steps)
    {s : Step}
    (hMem : s ∈ steps)
    (hSets : s.Sets) :
    (db.step s).Storable steps := by
  cases s with
  | add a =>
      apply getD_preserves hStorable
      intro after hAdd
      exact hStorable.add hMem hSets hAdd
  | assign s f =>
      apply getD_preserves hStorable
      intro after hAssign
      unfold assignFacts at hAssign
      split at hAssign
      · cases hAssign
      · cases hAssign
        refine hStorable.of_facts ?_ rfl rfl
        intro t g hGet
        rcases Table.get?_insert_cases hGet with
          ⟨rfl, rfl⟩ | hOld
        · exact .inr hSets
        · exact .inl hOld
  | change s g =>
      refine hStorable.of_facts ?_ rfl rfl
      intro t f hGet
      change (db.facts.modify s g).get? t = some f at hGet
      rw [Table.get?_modify] at hGet
      by_cases hSame : t = s
      · rw [if_pos hSame, Option.map_eq_some_iff] at hGet
        rcases hGet with ⟨old, hOld, rfl⟩
        have hChanged :=
          hSets old (hStorable.sets.facts s old hOld)
        refine .inr ⟨?_, hChanged.2⟩
        rw [hChanged.1, hStorable.ownFacts s old hOld, hSame]
      · rw [if_neg hSame] at hGet
        exact .inl hGet
  | stage s =>
      apply stage_preserves hStorable
      intro after events hStage
      exact hStorable.runStage hStage
  | build =>
      apply build_preserves (P := Storable steps) _ _ hStorable
      · intro before stage after events hBefore hStage
        exact hBefore.runStage hStage
      · intro before hBefore
        exact hBefore.of_facts (fun _ _ => .inl) rfl rfl
  | load snapshot =>
      apply getD_preserves hStorable
      intro after hLoad
      exact storable_of_ofJson steps hLoad

theorem storable_run
    (settings : Settings)
    {steps : List Step}
    (hSets : ∀ s ∈ steps, s.Sets) :
    (run settings steps).Storable steps :=
  run_preserves (storable_empty steps settings)
    fun _ s hMem hStorable => hStorable.step hMem (hSets s hMem)

------------------------------------------------------------
-- Round Trip
------------------------------------------------------------

/-
  Whatever was done to a database, as long as its lists stand
  for sets, facts were put under their own signatures, the
  classes that were added can be read under their own names, and
  no two methods in a set tie: the database has one text for its
  snapshot, however its sets are listed. The text is read back
  as an open database with the same content, which is written as
  the same text again. The text stays the same when the call
  graph is made.
-/
theorem snapshot_roundTrip
    (settings loading : Settings)
    (steps : List Step)
    (hSets : ∀ s ∈ steps, s.Sets)
    (hClasses :
      ∀ name b, .add (.binding name b) ∈ steps →
        (run settings steps).classes.get? name = some b →
          ∃ c, b.read = .ok c ∧ c.name = name)
    (hUntied : (run settings steps).Untied) :
    ∃ text again,
      (∀ listed, (run settings steps).Shuffled listed →
        listed.dump = .ok text ∧
          ∀ last, listed.build.database.Shuffled last →
            last.dump = .ok text) ∧
      load loading text = .ok again ∧
      again.settings = loading ∧
      (run settings steps).Restored again ∧
      ∀ listed, again.Shuffled listed →
        listed.dump = .ok text := by
  have hStorable := storable_run settings hSets
  have hOwn : (run settings steps).OwnRecords := by
    intro name b hClass
    rcases hStorable.classes name b hClass with hAdded | hOwn
    · exact hClasses name b hAdded hClass
    · exact hOwn
  rcases exists_recordsByName hOwn with ⟨records, hRecords⟩
  refine ⟨_, _, ?_, load_toIndented loading _ records, rfl,
    restored_restored hStorable.ownFacts hRecords loading, ?_⟩
  · intro listed hListed
    have hSnapshot := hListed.toJson_eq hUntied hOwn
    rw [toJson_eq hRecords] at hSnapshot
    refine ⟨by rw [dump, hSnapshot]; rfl, ?_⟩
    intro last hLast
    rw [dump, hLast.toJson_eq (hListed.untied hUntied).build
      (hListed.ownRecords hOwn).build, toJson_build, hSnapshot]
    rfl
  · intro listed hListed
    rw [dump, hListed.toJson_eq
      (untied_restored hStorable.ownFacts hRecords hUntied
        loading)
      (ownRecords_restored hRecords loading),
      toJson_restored hStorable.ownFacts hStorable.sets hRecords]
    rfl

/-
  Two known methods that the order of signatures does not tell
  apart, facts with names that have to be escaped, one of them
  above the single code units, and a class that is not read
  before it is needed.
-/
def storedSteps : List Step := [
  .add (.known { owner := "A", name := "f", package := some "" }),
  .add (.known { owner := "A", name := "f" }),
  .add (.facts {
    signature := { owner := "B", name := "\"\\\n𝒻" }
    calls := [{ owner := "A", name := "f" }]
    thrown := ["é", "E"]
    handlers := .ofList [
      ({ owner := "A", name := "f" }, ["é", "\t"])] }),
  .add (.binding "A" (.raw (.obj [
    ("fqn", .str "A"),
    ("interfaces", .arr [.str "J", .str "I", .str "J"])]))),
  .build]

/- The text is read and written again after a build. -/
theorem snapshot_roundTrip_storedSteps :
    ∃ text again,
      (run {} storedSteps).dump = .ok text ∧
      load {} text = .ok again ∧
      (run {} storedSteps).Restored again ∧
      again.dump = .ok text := by
  have hSets : ∀ s ∈ storedSteps, s.Sets := by
    intro s hs
    simp only [storedSteps, List.mem_cons, List.not_mem_nil,
      or_false] at hs
    rcases hs with rfl | rfl | rfl | rfl | rfl
    · trivial
    · trivial
    · exact ⟨by decide, by decide, by decide⟩
    · intro c hRead
      exact ClassRecord.sets_of_ofJson hRead
    · trivial
  have hClasses :
      ∀ name b, .add (.binding name b) ∈ storedSteps →
        (run {} storedSteps).classes.get? name = some b →
          ∃ c, b.read = .ok c ∧ c.name = name := by
    intro name b hAdded _
    simp only [storedSteps, List.mem_cons, Step.add.injEq,
      Addition.binding.injEq, reduceCtorEq, false_or, or_false,
      List.not_mem_nil] at hAdded
    rcases hAdded with ⟨rfl, rfl⟩
    exact ⟨_, rfl, rfl⟩
  have hFilled : (run {} (storedSteps.take 4)).Untied := by
    refine ⟨?_, ?_⟩
    · intro s f hGet
      rcases Table.get?_insert_cases hGet with
        ⟨-, rfl⟩ | hNone
      · decide
      · cases hNone
    · intro name c hRecord
      rcases (recordOf_eq_some_iff _ _ _).mp hRecord with
        ⟨b, hClass, hRead⟩
      rcases Table.get?_insert_cases hClass with
        ⟨-, rfl⟩ | hNone
      · cases hRead
        decide
      · cases hNone
  rcases snapshot_roundTrip {} {} storedSteps hSets hClasses
      hFilled.build with
    ⟨text, again, hDump, hLoad, -, hRestored, hAgain⟩
  exact ⟨text, again, (hDump _ (.refl _)).1, hLoad, hRestored,
    hAgain _ (.refl _)⟩

/- A method with the given calls, and nothing else. -/
def called
    (calls : List Signature) : Database :=
  run {} [.add (.facts {
    signature := { owner := "M", name := "g" }
    calls })]

/- Calls that are in order are read back as they were. -/
theorem restored_called
    {calls : List Signature}
    (hSorted :
      calls.Pairwise fun a b => (Signature.order a b).isLE)
    (hNodup : calls.Nodup) :
    restored {} (called calls) [] = called calls := by
  have hFacts :
      (called calls).snapshotFacts = [{
        signature := { owner := "M", name := "g" }
        calls }] :=
    Signature.sortOn_of_pairwise (List.pairwise_singleton _ _)
  have hCalls : restoredSignatures calls = calls := by
    rw [restoredSignatures, Signature.sort_of_pairwise hSorted,
      eraseDups_eq_self hNodup]
  have hBound :
      restoredSignatures (called calls).bound = [] := by
    change restoredSignatures [] = []
    simp [restoredSignatures, Signature.sort]
  have hThrown : restoredNames [] = [] := by
    simp [restoredNames, sortNames]
  have hHandlers :
      Signature.sortOn Prod.fst
        (Table.empty : Table Signature (List String)).entries =
          [] :=
    Signature.sortOn_of_pairwise .nil
  rw [restored, hFacts, hBound]
  simp only [List.map_cons, List.map_nil, MethodFacts.restored,
    MethodFacts.restoredHandlers, hCalls, hThrown, hHandlers]
  rfl

theorem dump_called
    (calls : List Signature) :
    (called calls).dump =
      .ok ((called calls).snapshot []).toIndented := by
  have hRecords : (called calls).RecordsByName [] := by
    change List.Forall₂ _ (List.mergeSort [] _) []
    simp
  rw [dump, toJson_eq hRecords]
  rfl

theorem shuffled_called
    {calls others : List Signature}
    (hPerm : calls.Perm others) :
    (called calls).Shuffled (called others) := by
  refine ⟨?_, .refl (fun _ => .inl rfl) _, rfl⟩
  exact .cons
    ⟨rfl, rfl, hPerm, .refl _, .refl (fun _ => .refl _) _⟩ .nil

/- A class with an interface that has no name. -/
def namelessInterface : List Step := [
  .add (.binding "A" (.raw (.obj [
    ("fqn", .str "A"),
    ("interfaces", .arr [.null, .str "I"])])))]

/-
  Where calls tie, the text depends on how they are listed, so
  that what was read can be written as another text. And there
  is no text where the name of an interface is not a text.
-/
theorem tied_calls_swap :
    (∃ text again listed other,
      (called [
        { owner := "A", name := "f" },
        { owner := "A", name := "f",
          package := some "" }]).dump = .ok text ∧
      load {} text = .ok again ∧
      again.Shuffled listed ∧
      listed.dump = .ok other ∧
      other ≠ text) ∧
    (run {} namelessInterface).dump = .error .wrongType := by
  refine ⟨?_, ?_⟩
  · let calls : List Signature := [
      { owner := "A", name := "f" },
      { owner := "A", name := "f", package := some "" }]
    have hRead : restored {} (called calls) [] = called calls :=
      restored_called (by decide) (by decide)
    have hOther :
        restored {} (called calls.reverse) [] =
          called calls.reverse :=
      restored_called (by decide) (by decide)
    refine ⟨_, _, called calls.reverse, _, dump_called calls,
      load_toIndented {} _ _, ?_, dump_called _, ?_⟩
    · rw [hRead]
      exact shuffled_called (List.reverse_perm calls).symm
    · -- one text cannot be read as both lists of calls
      intro hSame
      have hLoad :=
        load_toIndented {} (called calls.reverse) []
      rw [hSame, load_toIndented, hRead, hOther,
        Except.ok.injEq] at hLoad
      have hCalls :=
        congrArg (fun db => db.facts.entries.map
          fun e => e.2.calls) hLoad
      exact absurd hCalls (by decide)
  · rw [dump, toJson, classesByName]
    change Json.toIndented <$>
      (List.mapM _ (List.mergeSort [_] _) >>= _) = _
    rw [List.mergeSort_singleton]
    rfl

------------------------------------------------------------
-- Analysis
------------------------------------------------------------

variable {again : Database} {additions : List Addition}

/- Completed facts are the same, whatever a snapshot left out. -/
theorem Restored.rel_completed
    (hRestored : db.Restored again)
    (hFacts : db.OwnFacts)
    (s : Signature) :
    Option.Rel MethodFacts.Same
      ((db.facts.get? s).or
        (if s ∈ db.bound then some { signature := s }
          else none))
      ((again.facts.get? s).or
        (if s ∈ again.bound then some { signature := s }
          else none)) := by
  have hRel := hRestored.facts s
  simp only [← hRestored.bound s]
  cases hGet : db.facts.get? s with
  | none =>
      rw [hGet] at hRel
      rw [(eq_none_iff_of_rel hRel).mp rfl]
      simp only [Option.none_or]
      split
      · exact .some (.refl _)
      · exact .none
  | some f =>
      by_cases hKept : db.keeps s f = true
      · rw [hGet, Option.filter_some, if_pos hKept] at hRel
        rcases exists_of_rel_some hRel rfl with
          ⟨g, hAgain, hSame⟩
        rw [hAgain]
        exact .some hSame
      · rw [hGet, Option.filter_some, if_neg hKept] at hRel
        rw [(eq_none_iff_of_rel hRel).mp rfl]
        -- dropped facts are bare, and come back as they were
        simp only [keeps, Bool.not_eq_true, Bool.not_eq_false',
          Bool.and_eq_true, List.contains_iff_mem] at hKept
        have hBare := MethodFacts.same_of_isBare hKept.2
        rw [hFacts s f hGet] at hBare
        rw [if_pos hKept.1]
        exact .some hBare

/- Building what was read gives the content of what is built. -/
theorem Restored.sameContent_build
    (hRestored : db.Restored again)
    (hSettings : again.settings = db.settings)
    (hFacts : db.OwnFacts)
    (hLeft : db.build.failure = none)
    (hRight : again.build.failure = none) :
    SameContent db.build.database again.build.database := by
  rcases build_spec hLeft with
    ⟨-, _, facts, _, _, -, hCompleted, -, -, hBuild⟩
  rcases build_spec hRight with
    ⟨-, _, others, _, _, -, hOthers, -, -, hBuildAgain⟩
  rw [hBuild, hBuildAgain]
  refine ⟨hSettings.symm, ?_, hRestored.classes,
    hRestored.records⟩
  intro s
  change Option.Rel MethodFacts.Same (facts.get? s)
    (others.get? s)
  rw [hCompleted s, hOthers s]
  exact hRestored.rel_completed hFacts s

/-
  A snapshot keeps the analysis: a database that was filled,
  with each class under the name of its record and with named
  packages, has a snapshot, built or not. What is read from it
  can be built like the database itself, with the same facts,
  the same calls, one index of callers, and the same answers.
-/
theorem snapshot_sameAnalysis
    (settings : Settings)
    (additions : List Addition)
    (hFill : fill settings additions = .ok db)
    (hClasses : db.OwnRecords)
    (hPackages :
      ∀ a ∈ additions, ∀ s ∈ a.signatures, s.NamedPackage) :
    ∃ snapshot again,
      db.toJson = .ok snapshot ∧
      db.build.database.toJson = .ok snapshot ∧
      ofJson settings snapshot = .ok again ∧
      db.build.failure = none ∧
      again.build.failure = none ∧
      SameAnalysis db.build.database again.build.database := by
  have hUnbuilt := unbuilt_of_fill hFill
  have hFacts : db.OwnFacts := fun s f hGet =>
    (facts_of_fill hFill s f hGet).1
  have hSuccess :=
    hClasses.build_failure_eq_none hUnbuilt.isOpen
  have hBuilt :
      BuiltFrom settings additions db.build.database :=
    ⟨db, hFill, hSuccess, rfl⟩
  rcases exists_recordsByName hClasses with
    ⟨records, hRecords⟩
  have hRestored :=
    restored_restored hFacts hRecords settings
  have hAgain :=
    (ownRecords_restored hRecords
      settings).build_failure_eq_none hRestored.unbuilt.isOpen
  have hSame :=
    hRestored.sameContent_build
      (settings_of_fill hFill).symm hFacts hSuccess hAgain
  rcases hUnbuilt.builtGraph hSuccess with ⟨_, hLeft⟩
  rcases hRestored.unbuilt.builtGraph hAgain with ⟨_, hRight⟩
  refine ⟨_, _, toJson_eq hRecords, ?_,
    ofJson_snapshot settings db records, hSuccess, hAgain, ?_⟩
  · rw [toJson_build, toJson_eq hRecords]
  · exact hSame.sameAnalysis hLeft hRight
      hClasses.build.ownNames (hBuilt.packagesNamed hPackages)

/-
  A call that can run in a class below, and a known method with
  bare facts, which its snapshot leaves out.
-/
def calledThroughClass : List Addition := [
  .known { owner := "A", name := "f" },
  .facts { signature := { owner := "A", name := "f" } },
  .facts {
    signature := { owner := "M", name := "g" }
    calls := [{ owner := "A", name := "f" }] },
  .binding "C" (.raw (.obj [
    ("super_class", .str "A"),
    ("fqn", .str "C"),
    ("methods", .arr [.obj [
      ("class", .str "C"),
      ("name", .str "f")]])]))]

/- What is read from the snapshot has the same chains. -/
theorem snapshot_sameAnalysis_calledThroughClass :
    ∃ db snapshot again,
      fill {} calledThroughClass = .ok db ∧
      db.toJson = .ok snapshot ∧
      ofJson {} snapshot = .ok again ∧
      SameAnalysis db.build.database again.build.database := by
  have hFill :
      ∃ db, fill {} calledThroughClass = .ok db :=
    ⟨_, rfl⟩
  rcases hFill with ⟨db, hFill⟩
  have hClasses : db.OwnRecords := by
    intro name b hClass
    have hAdded := classes_of_fill hFill name b hClass
    simp only [calledThroughClass, List.mem_cons,
      Addition.binding.injEq, reduceCtorEq, false_or, or_false,
      List.not_mem_nil] at hAdded
    rcases hAdded with ⟨rfl, rfl⟩
    exact ⟨_, rfl, rfl⟩
  have hPackages :
      ∀ a ∈ calledThroughClass, ∀ s ∈ a.signatures,
        s.NamedPackage := by
    decide
  rcases snapshot_sameAnalysis {} calledThroughClass hFill
      hClasses hPackages with
    ⟨snapshot, again, hSnapshot, -, hAgain, -, -, hSame⟩
  exact ⟨db, snapshot, again, hFill, hSnapshot, hAgain, hSame⟩

end Database

end Uncaught
