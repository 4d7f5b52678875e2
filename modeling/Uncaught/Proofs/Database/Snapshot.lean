import Uncaught.Database.Snapshot
import Uncaught.Proofs.Database.Dispatch
import Uncaught.Proofs.Json.RoundTrip
import Uncaught.Proofs.Records

/-
  Snapshots of databases. A snapshot is read back as a database
  with the content that was written, and the snapshot of that
  database is the same again. Making the call graph does not
  change the snapshot.

  Key definitions include:
    * `Database.OwnFacts`
    * `Database.Sets`
    * `Database.keeps`
    * `Database.snapshot`
    * `Database.restored`
    * `Database.Restored`

  Main declarations:
    * `Database.ofJson_snapshot`
    * `Database.load_toIndented`
    * `Database.restored_restored`
    * `Database.toJson_restored`
    * `Database.toJson_build`
-/

namespace Uncaught

namespace Database

------------------------------------------------------------
-- Databases That Can Be Written
------------------------------------------------------------

/- The facts of each method stand under its signature. -/
def OwnFacts
    (db : Database) : Prop :=
  ∀ s f, db.facts.get? s = some f → f.signature = s

/- All the lists in a database are without repetitions. -/
structure Sets
    (db : Database) : Prop where
  facts : ∀ s f, db.facts.get? s = some f → f.Sets
  bound : db.bound.Nodup
  classes :
    ∀ name b c, db.classes.get? name = some b →
      b.read = .ok c → c.Sets

variable {db : Database} {records : List ClassRecord}
variable {settings : Settings}
variable {order : List (String × Json) → List (String × Json)}

------------------------------------------------------------
-- Facts In A Snapshot
------------------------------------------------------------

/- Whether a snapshot holds the facts of a method. -/
def keeps
    (db : Database)
    (s : Signature)
    (f : MethodFacts) : Bool :=
  !(db.bound.contains s && f.isBare)

theorem snapshotFacts_eq
    (db : Database) :
    db.snapshotFacts =
      Signature.sortOn MethodFacts.signature
        ((db.facts.entries.filter fun e =>
          db.keeps e.1 e.2).map Prod.snd) :=
  rfl

theorem mem_snapshotFacts_iff
    (db : Database)
    (f : MethodFacts) :
    f ∈ db.snapshotFacts ↔
      ∃ s, db.facts.get? s = some f ∧ db.keeps s f = true := by
  rw [snapshotFacts_eq, (Signature.sortOn_perm _ _).mem_iff,
    List.mem_map]
  simp only [List.mem_filter, Table.get?_eq_some_iff]
  constructor
  · rintro ⟨⟨s, g⟩, ⟨hMem, hKept⟩, rfl⟩
    exact ⟨s, hMem, hKept⟩
  · rintro ⟨s, hMem, hKept⟩
    exact ⟨(s, f), ⟨hMem, hKept⟩, rfl⟩

/- A snapshot has the facts of a method only once. -/
theorem nodup_signature_snapshotFacts
    (hFacts : db.OwnFacts) :
    (db.snapshotFacts.map MethodFacts.signature).Nodup := by
  have hKeys :
      ∀ e ∈ db.facts.entries.filter fun e => db.keeps e.1 e.2,
        (MethodFacts.signature ∘ Prod.snd) e = e.1 := by
    rintro ⟨s, f⟩ hMem
    exact hFacts s f
      ((Table.get?_eq_some_iff _ _ _).mpr
        (List.mem_filter.mp hMem).1)
  rw [snapshotFacts_eq]
  apply ((Signature.sortOn_perm _ _).map _).nodup_iff.mpr
  rw [List.map_map, List.map_congr_left hKeys]
  exact db.facts.nodup.sublist (List.filter_sublist.map _)

------------------------------------------------------------
-- Records In A Snapshot
------------------------------------------------------------

/- The records of the classes in the order of their names. -/
def RecordsByName
    (db : Database)
    (records : List ClassRecord) : Prop :=
  List.Forall₂
    (fun entry c => entry.2.read = .ok c ∧ c.name = entry.1)
    db.classesByName records

theorem mem_classesByName_iff
    (db : Database)
    (name : String)
    (b : ClassBinding) :
    (name, b) ∈ db.classesByName ↔
      db.classes.get? name = some b := by
  rw [classesByName, List.mem_mergeSort, Table.get?_eq_some_iff]

theorem exists_recordsByName
    (hClasses : db.OwnRecords) :
    ∃ records, db.RecordsByName records := by
  apply exists_forall₂
  rintro ⟨name, b⟩ hMem
  exact hClasses name b
    ((mem_classesByName_iff db name b).mp hMem)

namespace RecordsByName

theorem map_name_eq
    (hRecords : db.RecordsByName records) :
    records.map ClassRecord.name =
      db.classesByName.map Prod.fst := by
  have hNames :
      List.Forall₂ (· = ·) (records.map ClassRecord.name)
        (db.classesByName.map Prod.fst) := by
    rw [List.forall₂_map_left_iff, List.forall₂_map_right_iff]
    exact hRecords.flip.imp fun _ _ hEntry => hEntry.2
  rwa [List.forall₂_eq_eq_eq] at hNames

theorem map_name_perm
    (hRecords : db.RecordsByName records) :
    (records.map ClassRecord.name).Perm db.classes.keys := by
  rw [hRecords.map_name_eq]
  exact (List.mergeSort_perm db.classes.entries _).map Prod.fst

theorem pairwise_le
    (hRecords : db.RecordsByName records) :
    (records.map ClassRecord.name).Pairwise
      fun a b => decide (a ≤ b) = true := by
  rw [hRecords.map_name_eq, List.pairwise_map]
  apply List.pairwise_mergeSort
  · intro a b c hFirst hSecond
    exact decide_le_trans a.1 b.1 c.1 hFirst hSecond
  · intro a b
    exact decide_le_total a.1 b.1

theorem mapM_read
    (hRecords : db.RecordsByName records) :
    (db.classesByName.mapM fun entry => entry.2.read) =
      .ok records :=
  mapM_eq_ok_of_forall₂
    (hRecords.imp fun _ _ hEntry => hEntry.1)

theorem recordOf_iff
    (hRecords : db.RecordsByName records)
    (name : String)
    (c : ClassRecord) :
    db.recordOf name = some c ↔
      c ∈ records ∧ c.name = name := by
  rw [recordOf_eq_some_iff]
  constructor
  · rintro ⟨b, hClass, hRead⟩
    rcases exists_of_mem_left hRecords
        ((mem_classesByName_iff db name b).mpr hClass) with
      ⟨d, hMem, hRead', hName⟩
    rw [hRead] at hRead'
    cases hRead'
    exact ⟨hMem, hName⟩
  · rintro ⟨hMem, rfl⟩
    rcases exists_of_mem_right hRecords hMem with
      ⟨⟨name, b⟩, hEntry, hRead, rfl⟩
    exact ⟨b, (mem_classesByName_iff db c.name b).mp hEntry,
      hRead⟩

end RecordsByName

------------------------------------------------------------
-- Reading A Snapshot
------------------------------------------------------------

/- The snapshot of a database with the given records. -/
def snapshot
    (db : Database)
    (records : List ClassRecord) : Json :=
  .obj [
    ("version", .int snapshotVersion),
    ("methods", .arr (db.snapshotFacts.map MethodFacts.toJson)),
    ("bound_methods", .arr ((Signature.sort db.bound).map
      Signature.toJson)),
    ("classes", .arr (records.map ClassRecord.toJson))]

theorem toJson_eq
    (hRecords : db.RecordsByName records) :
    db.toJson = .ok (db.snapshot records) :=
  bind_eq_ok_iff.mpr ⟨records, hRecords.mapM_read, rfl⟩

theorem plain_snapshot
    (db : Database)
    (records : List ClassRecord) :
    (db.snapshot records).Plain := by
  apply Json.Plain.obj
  · change ["version", "methods", "bound_methods",
      "classes"].Nodup
    decide
  · simp only [List.mem_cons, List.not_mem_nil, or_false,
      forall_eq_or_imp, forall_eq]
    exact ⟨.int _, Json.plain_map MethodFacts.plain_toJson _,
      Json.plain_map Signature.plain_toJson _,
      Json.plain_map ClassRecord.plain_toJson _⟩

/- The database that is read from the snapshot of another. -/
def restored
    (settings : Settings)
    (db : Database)
    (records : List ClassRecord) : Database :=
  { empty settings with
    facts := .ofList
      (db.snapshotFacts.map fun f => (f.signature, f.restored))
    bound := restoredSignatures db.bound
    classes := .ofList
      (records.map fun c => (c.name, .record c.restored)) }

/- Wherever its fields stand, a snapshot is read. -/
theorem ofJson_arrange_snapshot
    (hOrder : Json.Arrangement order)
    (settings : Settings)
    (db : Database)
    (records : List ClassRecord) :
    ofJson settings ((db.snapshot records).arrange order) =
      .ok (restored settings db records) := by
  have hPlain := plain_snapshot db records
  have hVersion :
      ((db.snapshot records).arrange order).field? "version" =
        .ok (some ((Json.int snapshotVersion).arrange order)) :=
    hOrder.field?_arrange hPlain rfl
  have hMethods :
      ((db.snapshot records).arrange order).field "methods" =
        .ok ((Json.arr (db.snapshotFacts.map
          MethodFacts.toJson)).arrange order) :=
    hOrder.field_arrange hPlain rfl
  have hBound :
      ((db.snapshot records).arrange order).field
          "bound_methods" =
        .ok ((Json.arr ((Signature.sort db.bound).map
          Signature.toJson)).arrange order) :=
    hOrder.field_arrange hPlain rfl
  have hClasses :
      ((db.snapshot records).arrange order).field "classes" =
        .ok ((Json.arr (records.map
          ClassRecord.toJson)).arrange order) :=
    hOrder.field_arrange hPlain rfl
  have hMethodsRead :
      Json.list MethodFacts.ofJson
        ((Json.arr (db.snapshotFacts.map
          MethodFacts.toJson)).arrange order) =
        .ok (db.snapshotFacts.map MethodFacts.restored) :=
    Json.list_arrange_map fun f _ =>
      MethodFacts.ofJson_arrange hOrder f
  have hBoundRead :
      Json.list Signature.ofJson
        ((Json.arr ((Signature.sort db.bound).map
          Signature.toJson)).arrange order) =
        .ok ((Signature.sort db.bound).map id) :=
    Json.list_arrange_map fun s _ =>
      Signature.ofJson_arrange hOrder s
  have hClassesRead :
      Json.list ClassRecord.ofJson
        ((Json.arr (records.map
          ClassRecord.toJson)).arrange order) =
        .ok (records.map ClassRecord.restored) :=
    Json.list_arrange_map fun c _ =>
      ClassRecord.ofJson_arrange hOrder c
  rw [Json.arrange] at hVersion
  rw [List.map_id] at hBoundRead
  refine bind_eq_ok_iff.mpr
    ⟨_, mapError_eq_ok_iff.mpr hVersion, ?_⟩
  refine mapError_eq_ok_iff.mpr ?_
  simp only [hMethods, hBound, hClasses, hMethodsRead,
    hBoundRead, hClassesRead, bind, Except.bind, List.map_map]
  rfl

/- The text of a snapshot is read as well. -/
theorem load_toIndented
    (settings : Settings)
    (db : Database)
    (records : List ClassRecord) :
    load settings (db.snapshot records).toIndented =
      .ok (restored settings db records) := by
  rw [load, Json.parse_toIndented (plain_snapshot db records)]
  exact ofJson_arrange_snapshot Json.arrangement_byName settings
    db records

theorem ofJson_snapshot
    (settings : Settings)
    (db : Database)
    (records : List ClassRecord) :
    ofJson settings (db.snapshot records) =
      .ok (restored settings db records) := by
  have hRead :=
    ofJson_arrange_snapshot Json.arrangement_id settings db
      records
  rwa [Json.arrange_id (plain_snapshot db records)] at hRead

/-
  A database that is read from the snapshot of another: it is
  open and knows what the other one did, all but bare facts of
  methods that are known anyway.
-/
structure Restored
    (db again : Database) : Prop where
  unbuilt : again.Unbuilt
  bound : SameMembers db.bound again.bound
  facts :
    ∀ s, Option.Rel MethodFacts.Same
      ((db.facts.get? s).filter (db.keeps s))
      (again.facts.get? s)
  classes : SameMembers db.classes.keys again.classes.keys
  records :
    ∀ name, Option.Rel ClassRecord.Same (db.recordOf name)
      (again.recordOf name)

theorem nodup_restored_facts
    (hFacts : db.OwnFacts) :
    ((db.snapshotFacts.map fun f =>
      (f.signature, f.restored)).map Prod.fst).Nodup := by
  rw [List.map_map]
  exact nodup_signature_snapshotFacts hFacts

theorem nodup_restored_classes
    (hRecords : db.RecordsByName records) :
    ((records.map fun c =>
      (c.name, ClassBinding.record c.restored)).map
        Prod.fst).Nodup := by
  rw [List.map_map]
  exact hRecords.map_name_perm.nodup_iff.mpr db.classes.nodup

theorem get?_facts_restored
    (hFacts : db.OwnFacts)
    (settings : Settings)
    (records : List ClassRecord)
    (s : Signature) :
    (restored settings db records).facts.get? s =
      ((db.facts.get? s).filter (db.keeps s)).map
        MethodFacts.restored := by
  apply Option.ext
  intro g
  rw [Table.get?_eq_some_iff, restored,
    Table.entries_ofList (nodup_restored_facts hFacts)]
  simp only [List.mem_map, mem_snapshotFacts_iff,
    Prod.mk.injEq, Option.map_eq_some_iff,
    Option.filter_eq_some_iff]
  constructor
  · rintro ⟨f, ⟨t, hGet, hKept⟩, hSignature, hRestored⟩
    have hOwn := hFacts t f hGet
    have hSame : t = s := hOwn.symm.trans hSignature
    subst hSame
    exact ⟨f, ⟨hGet, hKept⟩, hRestored⟩
  · rintro ⟨f, ⟨hGet, hKept⟩, hRestored⟩
    exact ⟨f, ⟨s, hGet, hKept⟩, hFacts s f hGet, hRestored⟩

theorem recordOf_restored
    (hRecords : db.RecordsByName records)
    (settings : Settings)
    (name : String) :
    (restored settings db records).recordOf name =
      (db.recordOf name).map ClassRecord.restored := by
  apply Option.ext
  intro d
  rw [recordOf_eq_some_iff, Option.map_eq_some_iff]
  simp only [Table.get?_eq_some_iff, restored,
    Table.entries_ofList (nodup_restored_classes hRecords),
    List.mem_map, hRecords.recordOf_iff]
  constructor
  · rintro ⟨b, ⟨c, hMem, hEntry⟩, hRead⟩
    cases hEntry
    cases hRead
    exact ⟨c, ⟨hMem, rfl⟩, rfl⟩
  · rintro ⟨c, ⟨hMem, rfl⟩, rfl⟩
    exact ⟨_, ⟨c, hMem, rfl⟩, rfl⟩

theorem ownRecords_restored
    (hRecords : db.RecordsByName records)
    (settings : Settings) :
    (restored settings db records).OwnRecords := by
  intro name b hClass
  rw [Table.get?_eq_some_iff, restored,
    Table.entries_ofList (nodup_restored_classes hRecords)]
    at hClass
  rcases List.mem_map.mp hClass with ⟨c, -, hEntry⟩
  cases hEntry
  exact ⟨c.restored, rfl, rfl⟩

/- What is read from a snapshot is what was written. -/
theorem restored_restored
    (hFacts : db.OwnFacts)
    (hRecords : db.RecordsByName records)
    (settings : Settings) :
    db.Restored (restored settings db records) where
  unbuilt := ⟨rfl, rfl, rfl, rfl⟩
  bound := sameMembers_restoredSignatures db.bound
  facts := by
    intro s
    rw [get?_facts_restored hFacts]
    exact rel_map MethodFacts.same_restored _
  classes := by
    intro name
    rw [restored, Table.mem_keys_ofList, List.map_map]
    exact hRecords.map_name_perm.mem_iff.symm
  records := by
    intro name
    rw [recordOf_restored hRecords]
    exact rel_map ClassRecord.same_restored _

------------------------------------------------------------
-- Writing Again
------------------------------------------------------------

/- What a snapshot held is held again. -/
theorem snapshotFacts_restored
    (hFacts : db.OwnFacts)
    (settings : Settings)
    (records : List ClassRecord) :
    (restored settings db records).snapshotFacts =
      db.snapshotFacts.map MethodFacts.restored := by
  have hEntries :
      (restored settings db records).facts.entries =
        db.snapshotFacts.map fun f =>
          (f.signature, f.restored) :=
    Table.entries_ofList (nodup_restored_facts hFacts)
  have hKept :
      ∀ e ∈ db.snapshotFacts.map fun f =>
          (f.signature, f.restored),
        (restored settings db records).keeps e.1 e.2 =
          true := by
    intro e he
    rcases List.mem_map.mp he with ⟨f, hMem, rfl⟩
    rcases (mem_snapshotFacts_iff db f).mp hMem with
      ⟨s, hGet, hKeeps⟩
    rw [← hFacts s f hGet] at hKeeps
    have hBound :
        (restored settings db records).bound.contains
            f.signature =
          db.bound.contains f.signature := by
      rw [Bool.eq_iff_iff, List.contains_iff_mem,
        List.contains_iff_mem]
      exact (sameMembers_restoredSignatures db.bound
        f.signature).symm
    rwa [keeps, hBound, ← f.same_restored.isBare_eq]
  rw [snapshotFacts_eq, hEntries, List.filter_eq_self.mpr hKept,
    List.map_map]
  -- nothing moves, even among signatures that tie
  apply Signature.sortOn_of_pairwise
  rw [List.pairwise_map]
  exact Signature.pairwise_sortOn MethodFacts.signature _

theorem recordsByName_restored
    (hRecords : db.RecordsByName records)
    (settings : Settings) :
    (restored settings db records).RecordsByName
      (records.map ClassRecord.restored) := by
  have hEntries :
      (restored settings db records).classes.entries =
        records.map fun c => (c.name, .record c.restored) :=
    Table.entries_ofList (nodup_restored_classes hRecords)
  have hSorted :
      (restored settings db records).classesByName =
        records.map fun c => (c.name, .record c.restored) := by
    rw [classesByName, hEntries]
    apply List.mergeSort_of_pairwise
    rw [List.pairwise_map]
    exact List.pairwise_map.mp hRecords.pairwise_le
  rw [RecordsByName, hSorted, List.forall₂_map_left_iff,
    List.forall₂_map_right_iff, List.forall₂_same]
  intro c _
  exact ⟨rfl, rfl⟩

/- The snapshot of what was read is the one it was read from. -/
theorem toJson_restored
    (hFacts : db.OwnFacts)
    (hSets : db.Sets)
    (hRecords : db.RecordsByName records)
    (settings : Settings) :
    (restored settings db records).toJson =
      .ok (db.snapshot records) := by
  have hMethods :
      ∀ f ∈ db.snapshotFacts,
        (MethodFacts.toJson ∘ MethodFacts.restored) f =
          f.toJson := by
    intro f hMem
    rcases (mem_snapshotFacts_iff db f).mp hMem with
      ⟨s, hGet, -⟩
    exact MethodFacts.toJson_restored (hSets.facts s f hGet)
  have hBound :
      Signature.sort (restored settings db records).bound =
        Signature.sort db.bound :=
    sort_restoredSignatures hSets.bound
  have hClasses :
      ∀ c ∈ records,
        (ClassRecord.toJson ∘ ClassRecord.restored) c =
          c.toJson := by
    intro c hMem
    rcases (recordOf_eq_some_iff db c.name c).mp
        ((hRecords.recordOf_iff c.name c).mpr ⟨hMem, rfl⟩) with
      ⟨b, hClass, hRead⟩
    exact ClassRecord.toJson_restored
      (hSets.classes c.name b c hClass hRead)
  rw [toJson_eq (recordsByName_restored hRecords settings),
    snapshot, snapshot, snapshotFacts_restored hFacts, hBound,
    List.map_map, List.map_map, List.map_congr_left hMethods,
    List.map_congr_left hClasses]

------------------------------------------------------------
-- Building
------------------------------------------------------------

/- A snapshot is made of three fields of a database. -/
theorem toJson_congr
    {after : Database}
    (hFacts : after.snapshotFacts = db.snapshotFacts)
    (hBound : after.bound = db.bound)
    (hClasses : after.classes = db.classes) :
    after.toJson = db.toJson := by
  unfold toJson classesByName
  rw [hFacts, hBound, hClasses]

/- Bare facts of known methods are not in a snapshot. -/
theorem snapshotFacts_completeFacts
    {after : Database}
    {events : List Event}
    (hStage : db.completeFacts = .ok (after, events)) :
    after.snapshotFacts = db.snapshotFacts := by
  cases hStage
  rw [snapshotFacts_eq, snapshotFacts_eq]
  congr 2
  -- the entries that come in are those that are left out
  apply Table.filter_foldl_insert_keys
  · intro s hMissing
    have hBound := (List.mem_filter.mp hMissing).1
    simp [keeps, hBound, MethodFacts.isBare, Table.isEmpty,
      Table.empty]
  · intro s hMissing f hFacts
    have hNone := (List.mem_filter.mp hMissing).2
    simp [Table.contains, hFacts] at hNone

/- No stage changes what a snapshot is made of. -/
theorem snapshot_runStage
    {stage : Stage}
    {after : Database}
    {events : List Event}
    (hStage : db.runStage stage = .ok (after, events)) :
    after.snapshotFacts = db.snapshotFacts ∧
      after.bound = db.bound ∧ after.classes = db.classes := by
  cases stage with
  | facts =>
      have hFacts := snapshotFacts_completeFacts hStage
      rcases completeFacts_spec hStage with ⟨facts, rfl, -⟩
      exact ⟨hFacts, rfl, rfl⟩
  | classes =>
      rcases linkClasses_spec hStage with ⟨records, -, rfl⟩
      exact ⟨rfl, rfl, rfl⟩
  | calls =>
      rcases collectCalls_spec hStage with ⟨calls, rfl, -⟩
      exact ⟨rfl, rfl, rfl⟩
  | dispatches =>
      rcases dispatchCalls_spec hStage with
        ⟨dispatches, rfl, -⟩
      exact ⟨rfl, rfl, rfl⟩
  | callers =>
      rw [indexCallers_spec hStage]
      exact ⟨rfl, rfl, rfl⟩

theorem snapshot_build
    (db : Database) :
    db.build.database.snapshotFacts = db.snapshotFacts ∧
      db.build.database.bound = db.bound ∧
        db.build.database.classes = db.classes := by
  apply build_preserves (P := fun after =>
    after.snapshotFacts = db.snapshotFacts ∧
      after.bound = db.bound ∧ after.classes = db.classes)
  · intro before stage after events hBefore hStage
    rcases snapshot_runStage hStage with
      ⟨hFacts, hBound, hClasses⟩
    exact ⟨hFacts.trans hBefore.1, hBound.trans hBefore.2.1,
      hClasses.trans hBefore.2.2⟩
  · intro before hBefore
    exact hBefore
  · exact ⟨rfl, rfl, rfl⟩

/- Making the call graph does not change the snapshot. -/
theorem toJson_build
    (db : Database) :
    db.build.database.toJson = db.toJson := by
  rcases snapshot_build db with ⟨hFacts, hBound, hClasses⟩
  exact toJson_congr hFacts hBound hClasses

end Database

end Uncaught
