import Uncaught.Database.Snapshot
import Uncaught.Proofs.Database.CallGraph
import Uncaught.Proofs.Json.Arrange

/-
  This file defines runs of a database: any order of filling,
  changing facts, running single stages, building and starting
  again from a snapshot. It shows
  what holds of the index of callers throughout: every caller
  is a method of the index itself, and so is, once the database
  is sealed, every method with facts.

  Key definitions include:
    * `Step`
    * `Database.step`
    * `Database.run`
    * `Database.Indexed`

  Main declarations:
    * `Database.ofJson_spec`
    * `Database.run_preserves`
    * `Database.Indexed.step`
    * `Database.indexed_run`
-/

namespace Uncaught

/- One thing that can be done to a database. -/
inductive Step where
  | add (a : Addition)
  | assign (s : Signature) (f : MethodFacts)
  | change (s : Signature) (g : MethodFacts → MethodFacts)
  | stage (s : Database.Stage)
  | build
  | load (snapshot : Json)

namespace Database

/- Do one thing; what fails changes nothing. -/
def step
    (db : Database) : Step → Database
  | .add a => (db.add a).toOption.getD db
  | .assign s f => (db.assignFacts s f).toOption.getD db
  | .change s g => db.changeFacts s g
  | .stage s =>
      ((db.runStage s).map Prod.fst).toOption.getD db
  | .build => db.build.database
  | .load snapshot =>
      (ofJson db.settings snapshot).toOption.getD db

/- Do one thing after another, starting with nothing. -/
def run
    (settings : Settings)
    (steps : List Step) : Database :=
  steps.foldl step (empty settings)

/-
  The index knows its callers, and all methods with facts once
  the database is sealed; known methods then have facts.
-/
structure Indexed
    (db : Database) : Prop where
  caller_mem :
    ∀ callee caller e, db.edgeBetween callee caller = some e →
      caller ∈ db.callers.keys
  bound_mem :
    db.isSealed = true → ∀ s ∈ db.bound, s ∈ db.facts.keys
  facts_mem :
    db.isSealed = true →
      ∀ s ∈ db.facts.keys, s ∈ db.callers.keys

variable {db after : Database} {events : List Event}

------------------------------------------------------------
-- Steps
------------------------------------------------------------

theorem indexed_empty
    (settings : Settings) :
    (empty settings).Indexed := by
  refine ⟨?_, ?_, ?_⟩
  · intro callee caller e hEdge
    simp [edgeBetween, empty] at hEdge
  · intro hSealed
    simp [empty] at hSealed
  · intro hSealed
    simp [empty] at hSealed

/- A change of an open database leaves its index alone. -/
theorem Indexed.of_open
    (hIndexed : db.Indexed)
    (hCallers : after.callers = db.callers)
    (hOpen : after.isSealed = false) :
    after.Indexed := by
  refine ⟨?_, ?_, ?_⟩
  · intro callee caller e hEdge
    rw [edgeBetween_eq, hCallers] at hEdge
    rw [hCallers]
    exact hIndexed.caller_mem callee caller e hEdge
  · intro hSealed
    rw [hOpen] at hSealed
    cases hSealed
  · intro hSealed
    rw [hOpen] at hSealed
    cases hSealed

/- A snapshot that is read has been read record by record. -/
theorem ofJson_spec
    {settings : Settings}
    {snapshot : Json}
    (hLoad : ofJson settings snapshot = .ok after) :
    ∃ (methods : List MethodFacts) (bound : List Signature)
        (classes : List ClassRecord),
      (∀ f ∈ methods, ∃ v, MethodFacts.ofJson v = .ok f) ∧
      (∀ c ∈ classes, ∃ v, ClassRecord.ofJson v = .ok c) ∧
      after =
        { empty settings with
          facts := .ofList
            (methods.map fun f => (f.signature, f))
          bound := bound.eraseDups
          classes := .ofList
            (classes.map fun c => (c.name, .record c)) } := by
  unfold ofJson at hLoad
  rcases bind_eq_ok_iff.mp hLoad with ⟨version, -, hRead⟩
  by_cases hVersion : isVersion (version.getD .null) = true
  · simp only [hVersion, if_true, mapError_eq_ok_iff,
      bind_eq_ok_iff] at hRead
    rcases hRead with
      ⟨_, -, methods, hMethods, _, -, bound, -, _, -, classes,
        hClasses, hAfter⟩
    cases hAfter
    refine ⟨methods, bound, classes, ?_, ?_, rfl⟩
    · intro f hf
      exact Json.exists_read_of_mem_list hMethods hf
    · intro c hc
      exact Json.exists_read_of_mem_list hClasses hc
  · simp [hVersion, throw, throwThe,
      MonadExceptOf.throw] at hRead

/- A snapshot has neither an index nor a seal. -/
theorem indexed_of_ofJson
    {settings : Settings}
    {snapshot : Json}
    (hLoad : ofJson settings snapshot = .ok after) :
    after.Indexed := by
  rcases ofJson_spec hLoad with ⟨_, _, _, -, -, rfl⟩
  exact (indexed_empty settings).of_open rfl rfl

theorem isOpen_of_add
    {a : Addition}
    (hAdd : db.add a = .ok after) :
    db.isSealed = false := by
  by_contra hSealed
  rw [Bool.not_eq_false] at hSealed
  cases a <;>
    simp [add, addMethod, addBound, addClass, checkOpen,
      hSealed, bind, Except.bind] at hAdd

theorem Indexed.add
    {a : Addition}
    (hIndexed : db.Indexed)
    (hAdd : db.add a = .ok after) :
    after.Indexed := by
  have hOpen := isOpen_of_add hAdd
  rcases add_cases hAdd with
    ⟨f, -, hAfter⟩ | ⟨s, -, hAfter⟩ | ⟨name, b, -, hAfter⟩
  all_goals
    rw [hAfter]
    exact hIndexed.of_open rfl hOpen

theorem Indexed.assign
    {s : Signature}
    {f : MethodFacts}
    (hIndexed : db.Indexed)
    (hAssign : db.assignFacts s f = .ok after) :
    after.Indexed := by
  unfold assignFacts at hAssign
  by_cases hSealed : db.isSealed = true
  · simp [hSealed] at hAssign
  · rw [if_neg hSealed] at hAssign
    cases hAssign
    exact hIndexed.of_open rfl (Bool.not_eq_true _ ▸ hSealed)

/- Changed facts stay under the same signatures. -/
theorem Indexed.change
    (hIndexed : db.Indexed)
    (s : Signature)
    (g : MethodFacts → MethodFacts) :
    (db.changeFacts s g).Indexed := by
  refine ⟨hIndexed.caller_mem, ?_, ?_⟩
  · intro hSealed m hBound
    exact (Table.mem_keys_modify _ _ _ _).mpr
      (hIndexed.bound_mem hSealed m hBound)
  · intro hSealed m hFacts
    exact hIndexed.facts_mem hSealed m
      ((Table.mem_keys_modify _ _ _ _).mp hFacts)

------------------------------------------------------------
-- Stages
------------------------------------------------------------

/- Completing facts gives them to the known methods only. -/
theorem mem_keys_completed_iff
    {facts : Table Signature MethodFacts}
    (hFacts :
      ∀ s, facts.get? s =
        (db.facts.get? s).or
          (if s ∈ db.bound then some { signature := s }
            else none))
    (s : Signature) :
    s ∈ facts.keys ↔ s ∈ db.facts.keys ∨ s ∈ db.bound := by
  rw [Table.mem_keys_iff, Table.mem_keys_iff, hFacts s]
  cases db.facts.get? s with
  | none =>
      by_cases hBound : s ∈ db.bound <;> simp [hBound]
  | some f => simp

/- The callers in an index that is made are in it themselves. -/
theorem mem_keys_indexOver_of_edgeIn
    (hIndexed : db.Indexed)
    {facts : Table Signature MethodFacts}
    {dispatches : List DispatchEdge}
    {callee caller : Signature}
    {e : DispatchEdge}
    (hEdge :
      edgeIn
        ({ db with facts, dispatches }.indexOver db.callers)
        callee caller = some e) :
    caller ∈
      ({ db with
        facts, dispatches }.indexOver db.callers).keys := by
  rw [mem_keys_indexOver]
  rcases eq_of_edgeIn_foldl_indexEdge hEdge with
    ⟨hMem, -, hCaller⟩ | hOld
  · exact .inr ⟨e, List.mem_mergeSort.mp hMem,
      .inr hCaller.symm⟩
  · rw [edgeIn_foldl_insertNew] at hOld
    exact .inl (.inl
      (hIndexed.caller_mem callee caller e hOld))

theorem Indexed.runStage
    {s : Stage}
    (hIndexed : db.Indexed)
    (hStage : db.runStage s = .ok (after, events)) :
    after.Indexed := by
  cases s with
  | facts =>
      rcases completeFacts_spec hStage with
        ⟨facts, rfl, hFacts⟩
      refine ⟨hIndexed.caller_mem, ?_, ?_⟩
      · intro hSealed m hBound
        exact (mem_keys_completed_iff hFacts m).mpr
          (.inr hBound)
      · intro hSealed m hMem
        apply hIndexed.facts_mem hSealed
        rcases (mem_keys_completed_iff hFacts m).mp hMem with
          hOld | hBound
        · exact hOld
        · exact hIndexed.bound_mem hSealed m hBound
  | classes =>
      rcases linkClasses_spec hStage with ⟨records, -, rfl⟩
      exact ⟨hIndexed.caller_mem, hIndexed.bound_mem,
        hIndexed.facts_mem⟩
  | calls =>
      rcases collectCalls_spec hStage with ⟨calls, rfl, -⟩
      exact ⟨hIndexed.caller_mem, hIndexed.bound_mem,
        hIndexed.facts_mem⟩
  | dispatches =>
      rcases dispatchCalls_spec hStage with
        ⟨dispatches, rfl, -⟩
      exact ⟨hIndexed.caller_mem, hIndexed.bound_mem,
        hIndexed.facts_mem⟩
  | callers =>
      have hAfter := indexCallers_spec hStage
      subst hAfter
      refine ⟨?_, hIndexed.bound_mem, ?_⟩
      · intro callee caller e hEdge
        exact mem_keys_indexOver_of_edgeIn hIndexed hEdge
      · intro hSealed m hMem
        exact (mem_keys_indexOver _ _ _).mpr
          (.inl (.inr hMem))

/- Building either fails in a stage or indexes everything. -/
theorem Indexed.build
    (hIndexed : db.Indexed) :
    db.build.database.Indexed := by
  cases hFailure : db.build.failure with
  | none =>
      rcases build_spec hFailure with
        ⟨-, records, facts, calls, dispatches, -, hFacts, -, -,
          hBuild⟩
      rw [hBuild]
      refine ⟨?_, ?_, ?_⟩
      · intro callee caller e hEdge
        exact mem_keys_indexOver_of_edgeIn hIndexed hEdge
      · intro hSealed m hBound
        exact (mem_keys_completed_iff hFacts m).mpr
          (.inr hBound)
      · intro hSealed m hMem
        exact (mem_keys_indexOver _ _ _).mpr
          (.inl (.inr hMem))
  | some e =>
      rw [build_database_of_failure hFailure]
      by_cases hSealed : db.isSealed = true
      · rw [if_pos hSealed]
        exact hIndexed
      · rw [if_neg hSealed]
        apply runStages_preserves (P := Indexed) _ _ hIndexed
        intro before s after events hBefore hStage
        exact hBefore.runStage hStage

------------------------------------------------------------
-- Runs
------------------------------------------------------------

/- What fails changes nothing. -/
theorem getD_preserves
    {P : Database → Prop}
    {ε : Type}
    {outcome : Except ε Database}
    (hStart : P db)
    (hOk : ∀ after, outcome = .ok after → P after) :
    P (outcome.toOption.getD db) := by
  cases outcome with
  | error e => exact hStart
  | ok after => exact hOk after rfl

/- What a successful stage keeps, running it keeps. -/
theorem stage_preserves
    {P : Database → Prop}
    {s : Stage}
    (hStart : P db)
    (hOk :
      ∀ after events, db.runStage s = .ok (after, events) →
        P after) :
    P (db.step (.stage s)) := by
  apply getD_preserves hStart
  intro after hAfter
  cases hStage : db.runStage s with
  | error e =>
      rw [hStage] at hAfter
      cases hAfter
  | ok result =>
      rw [hStage] at hAfter
      cases hAfter
      exact hOk _ _ hStage

/- What each step keeps, a run keeps. -/
theorem run_preserves
    {P : Database → Prop}
    {settings : Settings}
    {steps : List Step}
    (hStart : P (empty settings))
    (hStep : ∀ db, ∀ s ∈ steps, P db → P (db.step s)) :
    P (run settings steps) := by
  unfold run
  generalize empty settings = db at hStart
  induction steps generalizing db with
  | nil => exact hStart
  | cons s rest ih =>
      apply ih
      · intro db t ht
        exact hStep db t (List.mem_cons_of_mem _ ht)
      · exact hStep db s List.mem_cons_self hStart

/- Whatever is done, the index stays closed. -/
theorem Indexed.step
    (hIndexed : db.Indexed)
    (s : Step) :
    (db.step s).Indexed := by
  cases s with
  | add a =>
      apply getD_preserves hIndexed
      intro after hAdd
      exact hIndexed.add hAdd
  | assign s f =>
      apply getD_preserves hIndexed
      intro after hAssign
      exact hIndexed.assign hAssign
  | change s g => exact hIndexed.change s g
  | stage s =>
      apply stage_preserves hIndexed
      intro after events hStage
      exact hIndexed.runStage hStage
  | build => exact hIndexed.build
  | load snapshot =>
      apply getD_preserves hIndexed
      intro after hLoad
      exact indexed_of_ofJson hLoad

/- The index of every database is closed. -/
theorem indexed_run
    (settings : Settings)
    (steps : List Step) :
    (run settings steps).Indexed :=
  run_preserves (indexed_empty settings)
    fun _ s _ hIndexed => hIndexed.step s

theorem foldl_step_of_foldlM_add
    {additions : List Addition}
    (hFill : additions.foldlM Database.add db = .ok after) :
    (additions.map Step.add).foldl Database.step db =
      after := by
  induction additions generalizing db with
  | nil =>
      cases hFill
      rfl
  | cons a rest ih =>
      rcases bind_eq_ok_iff.mp hFill with
        ⟨between, hAdd, hRest⟩
      rw [List.map_cons, List.foldl_cons, Database.step, hAdd]
      exact ih hRest

/- Filling and building is a run. -/
theorem BuiltFrom.run_eq
    {settings : Settings}
    {additions : List Addition}
    (hBuilt : BuiltFrom settings additions db) :
    run settings (additions.map Step.add ++ [.build]) =
      db := by
  rcases hBuilt with ⟨filled, hFill, -, hBuild⟩
  rw [run, List.foldl_append, foldl_step_of_foldlM_add hFill]
  exact hBuild

end Database

end Uncaught
