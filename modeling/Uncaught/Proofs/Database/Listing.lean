import Uncaught.Proofs.Database.Snapshot

/-
  Databases whose sets are listed in any order. A set has no
  order of its own, so that one database can be listed in many
  ways. Its snapshot is the same for all of them, as long as no
  two methods in one of its sets tie.

  Key definitions include:
    * `ClassBinding.Shuffled`
    * `Database.Shuffled`
    * `Database.Untied`

  Main declarations:
    * `Database.Shuffled.untied`
    * `Database.Shuffled.toJson_eq`
    * `Database.Untied.build`
    * `Database.untied_restored`
-/

namespace Uncaught

/-
  The same binding, with the sets in its record listed in any
  order. A value is read as a record whenever one is needed, so
  that its sets may be listed anew each time.
-/
def ClassBinding.Shuffled
    (b b' : ClassBinding) : Prop :=
  b = b' ∨
    ∃ c d, b.read = .ok c ∧ b'.read = .ok d ∧ c.Shuffled d

namespace Database

/-
  The same database, with the sets in its facts and classes
  listed in any order.
-/
structure Shuffled
    (db listed : Database) : Prop where
  facts :
    Table.Rel MethodFacts.Shuffled db.facts listed.facts
  classes :
    Table.Rel ClassBinding.Shuffled db.classes listed.classes
  rest :
    listed =
      { db with
        facts := listed.facts
        classes := listed.classes }

/-
  In no set of a database do two methods tie: neither in the
  calls of a method nor in the methods of a class.
-/
structure Untied
    (db : Database) : Prop where
  facts :
    ∀ s f, db.facts.get? s = some f →
      Signature.Untied f.calls
  classes :
    ∀ name c, db.recordOf name = some c →
      Signature.Untied c.methods

variable {db listed : Database} {records : List ClassRecord}

------------------------------------------------------------
-- Listed Databases
------------------------------------------------------------

namespace Shuffled

theorem refl
    (db : Database) :
    db.Shuffled db :=
  ⟨.refl .refl _, .refl (fun _ => .inl rfl) _, rfl⟩

theorem bound_eq
    (hShuffled : db.Shuffled listed) :
    listed.bound = db.bound := by
  rw [hShuffled.rest]

/- A class has the same record. -/
theorem rel_recordOf
    (hShuffled : db.Shuffled listed)
    (name : String) :
    Option.Rel ClassRecord.Shuffled (db.recordOf name)
      (listed.recordOf name) := by
  have hRel := hShuffled.classes.rel_get? name
  unfold recordOf
  generalize db.classes.get? name = left at hRel
  generalize listed.classes.get? name = right at hRel
  cases hRel with
  | none => exact .none
  | @some b b' hBinding =>
      rcases hBinding with rfl | ⟨c, d, hLeft, hRight, hRecord⟩
      · rw [Option.bind_some]
        cases b.read with
        | error e => exact .none
        | ok c => exact .some (.refl c)
      · rw [Option.bind_some, Option.bind_some, hLeft, hRight]
        exact .some hRecord

theorem ownRecords
    (hShuffled : db.Shuffled listed)
    (hClasses : db.OwnRecords) :
    listed.OwnRecords := by
  intro name b' hClass
  rcases exists_of_rel_some
      (rel_swap (hShuffled.classes.rel_get? name)) hClass with
    ⟨b, hOld, hBinding⟩
  rcases hClasses name b hOld with ⟨c, hRead, hName⟩
  rcases hBinding with rfl | ⟨c', d, hLeft, hRight, hRecord⟩
  · exact ⟨c, hRead, hName⟩
  · rw [hRead] at hLeft
    cases hLeft
    exact ⟨d, hRight, hRecord.name ▸ hName⟩

theorem untied
    (hShuffled : db.Shuffled listed)
    (hUntied : db.Untied) :
    listed.Untied where
  facts := by
    intro s g hGet
    rcases exists_of_rel_some
        (rel_swap (hShuffled.facts.rel_get? s)) hGet with
      ⟨f, hOld, hFacts⟩
    exact (hUntied.facts s f hOld).of_mem_iff
      fun _ => hFacts.calls.mem_iff
  classes := by
    intro name d hRecord
    rcases exists_of_rel_some
        (rel_swap (hShuffled.rel_recordOf name)) hRecord with
      ⟨c, hOld, hSame⟩
    exact (hUntied.classes name c hOld).of_mem_iff
      fun _ => hSame.methods.mem_iff

------------------------------------------------------------
-- Their Snapshots
------------------------------------------------------------

/- A snapshot holds the same facts, and writes them the same. -/
theorem map_snapshotFacts_eq
    (hShuffled : db.Shuffled listed)
    (hUntied : db.Untied) :
    db.snapshotFacts.map MethodFacts.toJson =
      listed.snapshotFacts.map MethodFacts.toJson := by
  have hEntries :=
    (List.forall₂_and_left db.facts.entries
      listed.facts.entries).mpr
      ⟨fun e he => hUntied.facts e.1 e.2
        ((Table.get?_eq_some_iff _ _ _).mpr he),
        hShuffled.facts⟩
  have hKept :=
    List.rel_filter (p := fun e => db.keeps e.1 e.2)
      (q := fun e => listed.keeps e.1 e.2)
      (fun e e' hEntry => by
        simp only [keeps, hShuffled.bound_eq, hEntry.2.1,
          hEntry.2.2.same.isBare_eq]) hEntries
  rw [snapshotFacts_eq, snapshotFacts_eq]
  apply map_eq_map_of_forall₂
  -- related facts have one signature, and are sorted alike
  refine (forall₂_mergeSort (R := fun f g =>
    Signature.Untied f.calls ∧ f.Shuffled g) ?_ ?_).imp
      fun f g hFacts => hFacts.2.toJson_eq hFacts.1
  · intro a b c d hFirst hSecond
    rw [hFirst.2.signature, hSecond.2.signature]
  · rw [List.forall₂_map_left_iff, List.forall₂_map_right_iff]
    exact hKept.imp fun e e' hEntry =>
      ⟨hEntry.1, hEntry.2.2⟩

/- The classes are read as the same records, written the same. -/
theorem exists_recordsByName
    (hShuffled : db.Shuffled listed)
    (hUntied : db.Untied)
    (hRecords : db.RecordsByName records) :
    ∃ others, listed.RecordsByName others ∧
      records.map ClassRecord.toJson =
        others.map ClassRecord.toJson := by
  have hSorted :
      List.Forall₂
        (fun e e' => e.1 = e'.1 ∧ e.2.Shuffled e'.2)
        db.classesByName listed.classesByName := by
    refine forall₂_mergeSort ?_ hShuffled.classes
    intro a b c d hFirst hSecond
    rw [hFirst.1, hSecond.1]
  have hStep :
      ∀ (e : String × ClassBinding) c
        (e' : String × ClassBinding),
        e.2.read = .ok c ∧ c.name = e.1 →
          e.1 = e'.1 ∧ e.2.Shuffled e'.2 →
            ∃ d, (e'.2.read = .ok d ∧ d.name = e'.1) ∧
              c.Shuffled d := by
    rintro ⟨name, b⟩ c ⟨name', b'⟩ ⟨hRead, hName⟩
      ⟨rfl, rfl | ⟨c', d, hLeft, hRight, hRecord⟩⟩
    · exact ⟨c, ⟨hRead, hName⟩, .refl c⟩
    · rw [hRead] at hLeft
      cases hLeft
      exact ⟨d, ⟨hRight, hRecord.name ▸ hName⟩, hRecord⟩
  rcases exists_forall₂_along hStep hRecords hSorted with
    ⟨others, hOthers, hSame⟩
  have hApart :
      ∀ c ∈ records, Signature.Untied c.methods := by
    intro c hMem
    exact hUntied.classes c.name c
      ((hRecords.recordOf_iff c.name c).mpr ⟨hMem, rfl⟩)
  refine ⟨others, hOthers, map_eq_map_of_forall₂ ?_⟩
  exact ((List.forall₂_and_left _ _).mpr ⟨hApart, hSame⟩).imp
    fun c d hRecord => hRecord.2.toJson_eq hRecord.1

/-
  However the sets of a database are listed, its snapshot is the
  same, where no methods tie.
-/
theorem toJson_eq
    (hShuffled : db.Shuffled listed)
    (hUntied : db.Untied)
    (hClasses : db.OwnRecords) :
    listed.toJson = db.toJson := by
  rcases Database.exists_recordsByName hClasses with
    ⟨records, hRecords⟩
  rcases hShuffled.exists_recordsByName hUntied hRecords with
    ⟨others, hOthers, hWritten⟩
  rw [Database.toJson_eq hRecords, Database.toJson_eq hOthers,
    snapshot, snapshot, hShuffled.map_snapshotFacts_eq hUntied,
    hShuffled.bound_eq, hWritten]

end Shuffled

------------------------------------------------------------
-- Reading And Building
------------------------------------------------------------

/- What is read from a snapshot has the sets that were written. -/
theorem untied_restored
    (hFacts : db.OwnFacts)
    (hRecords : db.RecordsByName records)
    (hUntied : db.Untied)
    (settings : Settings) :
    (restored settings db records).Untied where
  facts := by
    intro s f hGet
    rw [get?_facts_restored hFacts, Option.map_eq_some_iff]
      at hGet
    rcases hGet with ⟨g, hKept, rfl⟩
    have hOld := (Option.filter_eq_some_iff.mp hKept).1
    exact (hUntied.facts s g hOld).of_mem_iff
      (sameMembers_restoredSignatures g.calls)
  classes := by
    intro name d hRecord
    rw [recordOf_restored hRecords, Option.map_eq_some_iff]
      at hRecord
    rcases hRecord with ⟨c, hOld, rfl⟩
    exact (hUntied.classes name c hOld).of_mem_iff
      (sameMembers_restoredSignatures c.methods)

namespace Untied

/- The facts that a stage brings in call nothing. -/
theorem runStage
    {stage : Stage}
    {after : Database}
    {events : List Event}
    (hUntied : db.Untied)
    (hStage : db.runStage stage = .ok (after, events)) :
    after.Untied where
  facts := by
    intro s f hGet
    rcases facts_of_runStage hStage hGet with hOld | rfl
    · exact hUntied.facts s f hOld
    · exact fun _ hCall => nomatch hCall
  classes := by
    intro name c hRecord
    rw [recordOf, (snapshot_runStage hStage).2.2] at hRecord
    exact hUntied.classes name c hRecord

theorem build
    (hUntied : db.Untied) :
    db.build.database.Untied := by
  apply build_preserves (P := Untied) _ _ hUntied
  · intro before stage after events hBefore hStage
    exact hBefore.runStage hStage
  · intro before hBefore
    exact ⟨hBefore.facts, hBefore.classes⟩

end Untied

theorem OwnRecords.build
    (hClasses : db.OwnRecords) :
    db.build.database.OwnRecords := by
  rw [OwnRecords, (snapshot_build db).2.2]
  exact hClasses

end Database

end Uncaught
