import Uncaught.Proofs.Database.Handling
import Uncaught.Proofs.Records

/-
  Databases with the same content have the same analysis. The
  content is what a database was filled with, where lists stand
  for sets; how its members are ordered does not matter as long
  as the order of signatures tells all methods apart.

  Key definitions include:
    * `Database.SameContent`
    * `Database.Apart`
    * `Database.SameAnalysis`
    * `Database.chainsText`

  Main declarations:
    * `Database.BuiltGraph.callers_eq_of_sameMembers`
    * `Database.SameContent.callers_eq`
    * `Database.SameContent.sameAnalysis_of_callers_eq`
    * `Database.SameContent.sameAnalysis_of_apart`
    * `Database.SameContent.sameAnalysis`
-/

namespace Uncaught

------------------------------------------------------------
-- Facts And Records
------------------------------------------------------------

/- The same facts leave the same exceptions out. -/
theorem MethodFacts.Same.exceptions_eq
    {f g : MethodFacts}
    (hSame : f.Same g) :
    f.exceptions = g.exceptions := by
  apply nameSet_eq_of_mem_iff
  intro exc
  rw [List.mem_append, List.mem_append, hSame.signature,
    hSame.thrown exc]

/- A record says which classes stand above. -/
theorem ClassRecord.Same.standsUnder
    {c d : ClassRecord}
    (hSame : c.Same d)
    {sup : String}
    (hUnder : c.StandsUnder sup) :
    d.StandsUnder sup := by
  unfold StandsUnder at hUnder ⊢
  rwa [← hSame.superClass, ← hSame.interfaces sup]

namespace Database

------------------------------------------------------------
-- Content
------------------------------------------------------------

/-
  Databases with the same content: the same settings, facts and
  classes.
-/
structure SameContent
    (db other : Database) : Prop where
  settings : db.settings = other.settings
  facts :
    ∀ s, Option.Rel MethodFacts.Same (db.facts.get? s)
      (other.facts.get? s)
  classes : SameMembers db.classes.keys other.classes.keys
  records :
    ∀ name, Option.Rel ClassRecord.Same (db.recordOf name)
      (other.recordOf name)

/-
  All the signatures that the call graph of a database is made
  of have named packages.
-/
structure PackagesNamed
    (db : Database) : Prop where
  facts :
    ∀ s f, db.facts.get? s = some f →
      s.NamedPackage ∧ ∀ c ∈ f.calls, c.NamedPackage
  methods :
    ∀ name c, db.recordOf name = some c →
      ∀ m ∈ c.methods, m.NamedPackage

/-
  A signature that the call graph of a database is made of: a
  method with facts, or one that a call is written for or can
  run.
-/
def Uses
    (db : Database)
    (s : Signature) : Prop :=
  s ∈ db.facts.keys ∨
    ∃ caller written callee, db.CallsAs caller written callee ∧
      (s = written ∨ s = callee)

/- No two methods of the call graph tie in the order. -/
def Apart
    (db : Database) : Prop :=
  ∀ a b, db.Uses a → db.Uses b → Signature.order a b = .eq →
    a = b

variable {db other : Database}
variable {records others : List ClassRecord}

theorem PackagesNamed.of_callsAs
    (hNamed : db.PackagesNamed)
    {caller written callee : Signature}
    (hCalls : db.CallsAs caller written callee) :
    caller.NamedPackage ∧ written.NamedPackage ∧
      callee.NamedPackage := by
  rcases hCalls with ⟨f, hFacts, hWritten, hRuns⟩
  have hCaller := hNamed.facts caller f hFacts
  have hNamedWritten := hCaller.2 written hWritten
  refine ⟨hCaller.1, hNamedWritten, ?_⟩
  rcases hRuns with rfl | ⟨sub, c, hRecord, -, hMethod, -⟩
  · exact hNamedWritten
  · exact hNamed.methods sub c hRecord callee hMethod

/- With named packages, methods tie only if they are equal. -/
theorem PackagesNamed.apart
    (hNamed : db.PackagesNamed) :
    db.Apart := by
  have hUsed : ∀ s, db.Uses s → s.NamedPackage := by
    intro s hUses
    rcases hUses with
      hKey | ⟨caller, written, callee, hCalls, rfl | rfl⟩
    · rcases (Table.mem_keys_iff _ _).mp hKey with ⟨f, hFacts⟩
      exact (hNamed.facts s f hFacts).1
    · exact (hNamed.of_callsAs hCalls).2.1
    · exact (hNamed.of_callsAs hCalls).2.2
  intro a b hLeft hRight
  exact Signature.eq_of_order_eq_eq (hUsed a hLeft)
    (hUsed b hRight)

/- Calls tie only if they are equal. -/
theorem Apart.eq_of_edgeOrder_eq
    (hApart : db.Apart)
    {a b : DispatchEdge}
    (hLeft : db.CallsAs a.caller a.written a.callee)
    (hRight : db.CallsAs b.caller b.written b.callee)
    (hTie : edgeOrder a b = .eq) :
    a = b := by
  have hCaller :
      ∀ e : DispatchEdge,
        db.CallsAs e.caller e.written e.callee →
          db.Uses e.caller := by
    rintro e ⟨f, hFacts, -⟩
    exact .inl ((Table.mem_keys_iff _ _).mpr ⟨f, hFacts⟩)
  simp only [edgeOrder, compareLex, Ordering.then_eq_eq] at hTie
  have hSameCallee :=
    hApart _ _ (.inr ⟨_, _, _, hLeft, .inr rfl⟩)
      (.inr ⟨_, _, _, hRight, .inr rfl⟩) hTie.1
  have hSameCaller :=
    hApart _ _ (hCaller a hLeft) (hCaller b hRight) hTie.2.1
  have hSameWritten :=
    hApart _ _ (.inr ⟨_, _, _, hLeft, .inl rfl⟩)
      (.inr ⟨_, _, _, hRight, .inl rfl⟩) hTie.2.2
  cases a
  cases b
  simp_all

/- Where additions name their packages, so does the database. -/
theorem BuiltFrom.packagesNamed
    {settings : Settings}
    {additions : List Addition}
    (hBuilt : BuiltFrom settings additions db)
    (hPackages :
      ∀ a ∈ additions, ∀ s ∈ a.signatures, s.NamedPackage) :
    db.PackagesNamed where
  facts := by
    intro s f hFacts
    rcases hBuilt with ⟨filled, hFill, hSuccess, rfl⟩
    rcases build_spec hSuccess with
      ⟨-, records, facts, calls, dispatches, -, hCompleted, -,
        -, hBuild⟩
    rw [hBuild, hCompleted s, Option.or_eq_some_iff] at hFacts
    rcases hFacts with hOld | ⟨-, hBare⟩
    · rcases facts_of_fill hFill s f hOld with ⟨rfl, hAdded⟩
      have hNamed := hPackages _ hAdded
      simp only [Addition.signatures] at hNamed
      refine ⟨hNamed _ (by simp), ?_⟩
      intro c hc
      exact hNamed c (by simp [hc])
    · split at hBare
      · next hKnown =>
          cases hBare
          have hNamed :=
            hPackages _ (bound_of_fill hFill s hKnown)
          exact ⟨hNamed s (by simp [Addition.signatures]),
            by simp⟩
      · cases hBare
  methods := by
    intro name c hRecord m hm
    rcases (recordOf_eq_some_iff db name c).mp hRecord with
      ⟨b, hClass, hRead⟩
    apply hPackages _ (hBuilt.classes hClass)
    simpa only [Addition.signatures, hRead] using hm

namespace SameContent

theorem symm
    (hSame : SameContent db other) :
    SameContent other db where
  settings := hSame.settings.symm
  facts := fun s =>
    rel_symm MethodFacts.Same.symm (hSame.facts s)
  classes := hSame.classes.symm
  records := fun name =>
    rel_symm ClassRecord.Same.symm (hSame.records name)

theorem mem_keys_of_mem
    (hSame : SameContent db other)
    {s : Signature}
    (hMem : s ∈ db.facts.keys) :
    s ∈ other.facts.keys := by
  rcases (Table.mem_keys_iff _ _).mp hMem with ⟨f, hFacts⟩
  rcases exists_of_rel_some (hSame.facts s) hFacts with
    ⟨g, hOther, -⟩
  exact (Table.mem_keys_iff _ _).mpr ⟨g, hOther⟩

theorem sameMembers_keys
    (hSame : SameContent db other) :
    SameMembers db.facts.keys other.facts.keys :=
  fun _ => ⟨hSame.mem_keys_of_mem, hSame.symm.mem_keys_of_mem⟩

/- Methods with facts come in one order, where none tie. -/
theorem sort_keys_eq
    (hSame : SameContent db other)
    (hApart : db.Apart) :
    Signature.sort db.facts.keys =
      Signature.sort other.facts.keys := by
  apply Signature.sort_eq_of_perm
  · intro a ha b hb hTie
    exact hApart a b (.inl ha) (.inl hb) hTie
  · exact (List.perm_ext_iff_of_nodup db.facts.nodup
      other.facts.nodup).mpr hSame.sameMembers_keys

theorem ownNames
    (hSame : SameContent db other)
    (hNames : db.OwnNames) :
    other.OwnNames := by
  intro name b d hClass hRead
  have hOther : other.recordOf name = some d :=
    (recordOf_eq_some_iff other name d).mpr ⟨b, hClass, hRead⟩
  rcases exists_of_rel_some (hSame.symm.records name)
      hOther with
    ⟨c, hRecord, hRecords⟩
  rw [hRecords.name]
  exact name_eq_of_recordOf hNames hRecord

------------------------------------------------------------
-- Classes
------------------------------------------------------------

theorem directlyUnder
    (hSame : SameContent db other)
    {sub sup : String}
    (hUnder : db.DirectlyUnder sub sup) :
    other.DirectlyUnder sub sup := by
  rcases hUnder with ⟨c, hRecord, hStands, hOther⟩
  rcases exists_of_rel_some (hSame.records sub) hRecord with
    ⟨d, hRecord', hRecords⟩
  exact ⟨d, hRecord', hRecords.standsUnder hStands, hOther⟩

/- The same classes stand below each other. -/
theorem below_eq
    (hSame : SameContent db other) :
    db.Below = other.Below := by
  have hUnder : db.DirectlyUnder = other.DirectlyUnder := by
    funext sub sup
    exact propext
      ⟨hSame.directlyUnder, hSame.symm.directlyUnder⟩
  unfold Below
  rw [hUnder]

/- The same types take an exception. -/
theorem takes_eq
    (hSame : SameContent db other)
    (hLeft : db.GraphOf records)
    (hRight : other.GraphOf others)
    (hNames : db.OwnNames)
    (thrown caught : String) :
    db.takes thrown caught = other.takes thrown caught := by
  rw [Bool.eq_iff_iff, hLeft.takes_iff hNames,
    hRight.takes_iff (hSame.ownNames hNames)]
  unfold Catches
  rw [hSame.classes thrown, hSame.classes caught,
    hSame.settings, hSame.below_eq]

------------------------------------------------------------
-- Calls
------------------------------------------------------------

theorem mem_writtenCalls
    (hSame : SameContent db other)
    {e : CallEdge}
    (hMem : e ∈ db.writtenCalls) :
    e ∈ other.writtenCalls := by
  rcases (mem_writtenCalls_iff _ _).mp hMem with
    ⟨f, hFacts, hCall⟩
  rcases exists_of_rel_some (hSame.facts e.caller) hFacts with
    ⟨g, hOther, hSameFacts⟩
  exact (mem_writtenCalls_iff _ _).mpr
    ⟨g, hOther, (hSameFacts.calls e.callee).mp hCall⟩

theorem callsAs
    (hSame : SameContent db other)
    {caller written callee : Signature}
    (hCalls : db.CallsAs caller written callee) :
    other.CallsAs caller written callee := by
  rcases hCalls with ⟨f, hFacts, hWritten, hRuns⟩
  rcases exists_of_rel_some (hSame.facts caller) hFacts with
    ⟨g, hOther, hSameFacts⟩
  refine ⟨g, hOther, (hSameFacts.calls written).mp hWritten, ?_⟩
  rcases hRuns with
    hWrittenOne | ⟨sub, c, hRecord, hBelow, hMethod⟩
  · exact .inl hWrittenOne
  · rcases exists_of_rel_some (hSame.records sub) hRecord with
      ⟨d, hRecord', hRecords⟩
    rw [hSame.below_eq] at hBelow
    exact .inr ⟨sub, d, hRecord', hBelow,
      (hRecords.methods callee).mp hMethod.1, hMethod.2⟩

/- The same calls can run. -/
theorem sameMembers_dispatches
    (hSame : SameContent db other)
    (hLeft : db.GraphOf records)
    (hRight : other.GraphOf others)
    (hNames : db.OwnNames) :
    SameMembers db.dispatches other.dispatches := by
  intro e
  rw [hLeft.mem_dispatches_iff hNames,
    hRight.mem_dispatches_iff (hSame.ownNames hNames)]
  exact ⟨hSame.callsAs, hSame.symm.callsAs⟩

end SameContent

/-
  Where no calls tie, the index is the same to the last detail:
  it is made of the same methods and the same calls in the same
  order.
-/
theorem BuiltGraph.callers_eq_of_sameMembers
    (hLeft : db.BuiltGraph records)
    (hRight : other.BuiltGraph others)
    (hKeys :
      Signature.sort db.facts.keys =
        Signature.sort other.facts.keys)
    (hDispatches : SameMembers db.dispatches other.dispatches)
    (hTies :
      ∀ a ∈ db.dispatches, ∀ b ∈ db.dispatches,
        edgeOrder a b = .eq → a = b) :
    db.callers = other.callers := by
  have hEdges :
      db.dispatches.mergeSort edgeLe =
        other.dispatches.mergeSort edgeLe :=
    mergeSort_isLE_eq_of_perm edgeOrder hTies
      ((List.perm_ext_iff_of_nodup hLeft.nodup
        hRight.nodup).mpr hDispatches)
  rw [hLeft.callers_eq, hRight.callers_eq]
  unfold indexOver
  rw [hKeys, hEdges]

/- Where no methods tie, the same content has one index. -/
theorem SameContent.callers_eq
    (hSame : SameContent db other)
    (hLeft : db.BuiltGraph records)
    (hRight : other.BuiltGraph others)
    (hNames : db.OwnNames)
    (hApart : db.Apart) :
    db.callers = other.callers := by
  apply hLeft.callers_eq_of_sameMembers hRight
    (hSame.sort_keys_eq hApart)
    (hSame.sameMembers_dispatches hLeft.toGraphOf
      hRight.toGraphOf hNames)
  intro a ha b hb hTie
  exact hApart.eq_of_edgeOrder_eq
    ((hLeft.mem_dispatches_iff hNames a).mp ha)
    ((hLeft.mem_dispatches_iff hNames b).mp hb) hTie

------------------------------------------------------------
-- Answers
------------------------------------------------------------

/-
  The text of the chains of all sources, along the trees or
  along all paths: one JSON array on one line.
-/
def chainsText
    (db : Database)
    (exact : Bool) : Outcome String := do
  let sources ← db.sources none
  let chains ← db.chains exact sources
  return (Json.arr (chains.map Chain.toJson)).toAsciiLine

/-
  Sealed databases with the same analysis: facts that say the
  same, the same calls, one index of callers, and the same
  answer to every question.
-/
structure SameAnalysis
    (db other : Database) : Prop where
  facts :
    ∀ s, Option.Rel MethodFacts.Same (db.facts.get? s)
      (other.facts.get? s)
  calls : SameMembers db.calls other.calls
  dispatches : SameMembers db.dispatches other.dispatches
  callers : db.callers = other.callers
  callersOf : ∀ m, Agree (db.callersOf m) (other.callersOf m)
  isSource :
    ∀ m prefixes,
      Agree (db.isSource m prefixes) (other.isSource m prefixes)
  sources :
    ∀ prefixes,
      Agree (db.sources prefixes) (other.sources prefixes)
  exceptionsOf :
    ∀ m, Agree (db.exceptionsOf m) (other.exceptionsOf m)
  canHandle :
    ∀ thrown caught,
      Agree (db.canHandle thrown caught)
        (other.canHandle thrown caught)
  chainsFrom :
    ∀ source,
      Agree (db.chainsFrom source) (other.chainsFrom source)
  allChainsFrom :
    ∀ source,
      Agree (db.allChainsFrom source)
        (other.allChainsFrom source)
  chainsText :
    ∀ exact,
      Agree (db.chainsText exact) (other.chainsText exact)

namespace SameContent

/- The same exceptions leave a method. -/
theorem exceptionsIn_eq
    (hSame : SameContent db other)
    (m : Signature) :
    db.exceptionsIn m = other.exceptionsIn m := by
  unfold exceptionsIn
  have hFacts := hSame.facts m
  generalize db.facts.get? m = left at hFacts
  generalize other.facts.get? m = right at hFacts
  cases hFacts with
  | some hFacts => exact hFacts.exceptions_eq
  | none => rfl

theorem throwsItself_eq
    (hSame : SameContent db other)
    (prefixes : Option (List String))
    (m : Signature) :
    db.throwsItself prefixes m =
      other.throwsItself prefixes m := by
  unfold throwsItself
  rw [hSame.settings]
  have hFacts := hSame.facts m
  generalize db.facts.get? m = left at hFacts
  generalize other.facts.get? m = right at hFacts
  cases hFacts with
  | some hFacts => simp only [hFacts.thrown.isEmpty_eq]
  | none => rfl

/- The same types are caught around a call. -/
theorem sameMembers_handlersIn
    (hSame : SameContent db other)
    (caller written : Signature) :
    SameMembers (db.handlersIn caller written)
      (other.handlersIn caller written) := by
  intro name
  unfold handlersIn
  have hFacts := hSame.facts caller
  generalize db.facts.get? caller = left at hFacts
  generalize other.facts.get? caller = right at hFacts
  cases hFacts with
  | some hFacts =>
      simp only [mem_sortNames]
      exact sameMembers_getD (hFacts.handlers written) name
  | none => rfl

end SameContent

/-
  Where two databases share their index and take the same
  exceptions, a caller handles the same.
-/
theorem SameContent.handles_eq
    (hSame : SameContent db other)
    (hCallers : db.callers = other.callers)
    (hTakes : db.takes = other.takes)
    (exc : String)
    (callee caller : Signature) :
    db.handles exc callee caller =
      other.handles exc callee caller := by
  unfold handles edgeBetween
  rw [hCallers, hTakes]
  cases (other.callers.get? callee).bind (·.get? caller) with
  | none => rfl
  | some e =>
      exact (hSame.sameMembers_handlersIn caller
        e.written).any_eq _

theorem entriesAlong_congr
    {exc : String}
    (hHandles :
      ∀ callee caller,
        db.handles exc callee caller =
          other.handles exc callee caller)
    (callee : Signature)
    (callers : List Signature) :
    db.entriesAlong exc callee callers =
      other.entriesAlong exc callee callers := by
  induction callers generalizing callee with
  | nil => rfl
  | cons caller rest ih =>
      rw [entriesAlong, entriesAlong, hHandles, ih]

/- The same chains go along the same paths. -/
theorem SameContent.chainsOfPaths_eq
    (hSame : SameContent db other)
    (hCallers : db.callers = other.callers)
    (hTakes : db.takes = other.takes)
    (source : Signature)
    (paths : List (List Signature)) :
    db.chainsOfPaths source paths =
      other.chainsOfPaths source paths := by
  unfold chainsOfPaths chainAlong
  simp only [hSame.exceptionsIn_eq,
    entriesAlong_congr (hSame.handles_eq hCallers hTakes _)]

theorem checkSealed_eq
    (hSealed : db.isSealed = true) :
    db.checkSealed = .ok () :=
  if_pos hSealed

/- Questions to sealed databases agree as their answers do. -/
theorem agree_checkSealed
    {α : Type}
    {a b : α}
    (hLeft : db.isSealed = true)
    (hRight : other.isSealed = true)
    (hSame : a = b) :
    Agree (db.checkSealed >>= fun _ => .ok a)
      (other.checkSealed >>= fun _ => .ok b) := by
  rw [checkSealed_eq hLeft, checkSealed_eq hRight]
  exact Agree.pure hSame

/- Where both enumerators agree, so does the text of chains. -/
theorem agree_chainsText
    (hSources :
      ∀ prefixes,
        Agree (db.sources prefixes) (other.sources prefixes))
    (hTree :
      ∀ source,
        Agree (db.chainsFrom source) (other.chainsFrom source))
    (hAll :
      ∀ source,
        Agree (db.allChainsFrom source)
          (other.allChainsFrom source))
    (exact : Bool) :
    Agree (db.chainsText exact) (other.chainsText exact) := by
  apply (hSources none).bind
  intro sources
  have hChains :
      Agree (db.chains exact sources)
        (other.chains exact sources) := by
    refine Agree.bind (Agree.mapM ?_ sources) ?_
    · intro source
      cases exact with
      | true => exact hAll source
      | false => exact hTree source
    · intro found
      exact Agree.pure rfl
  apply hChains.bind
  intro chains
  exact Agree.pure rfl

/-
  Databases that were built from the same content, with one
  index, and that take the same exceptions, have the same
  analysis.
-/
theorem SameContent.sameAnalysis_of_callers_eq
    (hSame : SameContent db other)
    (hLeft : db.BuiltGraph records)
    (hRight : other.BuiltGraph others)
    (hKeys :
      Signature.sort db.facts.keys =
        Signature.sort other.facts.keys)
    (hDispatches : SameMembers db.dispatches other.dispatches)
    (hCallers : db.callers = other.callers)
    (hTakes : db.takes = other.takes) :
    SameAnalysis db other := by
  have hCallersIn : db.callersIn = other.callersIn := by
    funext m
    unfold callersIn
    rw [hCallers]
  have hSources :
      ∀ prefixes,
        Agree (db.sources prefixes)
          (other.sources prefixes) := by
    intro prefixes
    apply agree_checkSealed hLeft.isSealed hRight.isSealed
    rw [hKeys]
    congr 1
    funext m
    exact hSame.throwsItself_eq prefixes m
  have hTree :
      ∀ source,
        Agree (db.chainsFrom source)
          (other.chainsFrom source) := by
    intro source
    rw [chainsFrom_eq hLeft.isSealed,
      chainsFrom_eq hRight.isSealed, hCallers, hCallersIn,
      hSame.chainsOfPaths_eq hCallers hTakes]
    exact Agree.pure rfl
  have hAll :
      ∀ source,
        Agree (db.allChainsFrom source)
          (other.allChainsFrom source) := by
    intro source
    rw [allChainsFrom_eq hLeft.isSealed,
      allChainsFrom_eq hRight.isSealed, hCallers, hCallersIn,
      hSame.chainsOfPaths_eq hCallers hTakes]
    exact Agree.pure rfl
  refine
    { facts := hSame.facts
      calls := ?_
      dispatches := hDispatches
      callers := hCallers
      callersOf := ?_
      isSource := ?_
      sources := hSources
      exceptionsOf := ?_
      canHandle := ?_
      chainsFrom := hTree
      allChainsFrom := hAll
      chainsText := agree_chainsText hSources hTree hAll }
  · intro e
    rw [hLeft.mem_calls, hRight.mem_calls]
    exact ⟨hSame.mem_writtenCalls, hSame.symm.mem_writtenCalls⟩
  · intro m
    apply agree_checkSealed hLeft.isSealed hRight.isSealed
    rw [hCallersIn]
  · intro m prefixes
    apply agree_checkSealed hLeft.isSealed hRight.isSealed
    exact hSame.throwsItself_eq prefixes m
  · intro m
    apply agree_checkSealed hLeft.isSealed hRight.isSealed
    exact hSame.exceptionsIn_eq m
  · intro thrown caught
    apply agree_checkSealed hLeft.isSealed hRight.isSealed
    rw [hTakes]

/-
  Databases that were built from the same content, in which no
  methods tie, have the same analysis.
-/
theorem SameContent.sameAnalysis_of_apart
    (hSame : SameContent db other)
    (hLeft : db.BuiltGraph records)
    (hRight : other.BuiltGraph others)
    (hNames : db.OwnNames)
    (hApart : db.Apart) :
    SameAnalysis db other := by
  apply hSame.sameAnalysis_of_callers_eq hLeft hRight
    (hSame.sort_keys_eq hApart)
    (hSame.sameMembers_dispatches hLeft.toGraphOf
      hRight.toGraphOf hNames)
    (hSame.callers_eq hLeft hRight hNames hApart)
  funext thrown caught
  exact hSame.takes_eq hLeft.toGraphOf hRight.toGraphOf hNames
    thrown caught

/- With named packages, the same content is enough. -/
theorem SameContent.sameAnalysis
    (hSame : SameContent db other)
    (hLeft : db.BuiltGraph records)
    (hRight : other.BuiltGraph others)
    (hNames : db.OwnNames)
    (hNamed : db.PackagesNamed) :
    SameAnalysis db other :=
  hSame.sameAnalysis_of_apart hLeft hRight hNames hNamed.apart

end Database

end Uncaught
