import Uncaught.Proofs.Resolve.Body
import Uncaught.Resolve.Resolution

/-
  What the resolution of a project is: the bodies of all files,
  each resolved on its own, added up. The facts of a method say
  what the effects of its bodies say, and the methods outside
  are those that some body calls.

  Key definitions include:
    * `Resolution.bodyOf`
    * `Resolution.bodiesOf`
    * `Resolution.addEffects`
    * `Resolution.Resolves`

  Main declarations:
    * `Resolution.exists_table_of_bodiesOf`
    * `Resolution.ofFiles_eq_ok_iff`
    * `Resolution.Resolves.mem_keys_facts_iff`
    * `Resolution.Resolves.has_iff`
    * `Resolution.Resolves.mem_externals_iff`
    * `Resolution.Resolves.unresolved_eq`
    * `Resolution.Resolves.finds`
-/

namespace Uncaught

open Symbols (Target)

namespace Resolution

variable {files : List FileSummary} {r : Resolution}

------------------------------------------------------------
-- Statements of Methods
------------------------------------------------------------

/- The statements of a file that belong to a method. -/
def statementsOf
    (f : FileSummary)
    (text : String) : List Statement :=
  (f.statements.getD []).filter fun s =>
    decide (s.owner = some text)

theorem mem_statementsOf_iff
    (f : FileSummary)
    (text : String)
    (s : Statement) :
    s ∈ statementsOf f text ↔
      s ∈ f.statements.getD [] ∧ s.owner = some text := by
  rw [statementsOf, List.mem_filter, decide_eq_true_eq]

/- The statements of a method keep their order. -/
theorem getD_get?_byMethod
    {statements : List Statement}
    {bodies : Table String (List Statement)}
    (hBodies : byMethod statements = .ok bodies)
    (text : String) :
    (bodies.get? text).getD [] =
      statements.filter fun s =>
        decide (s.owner = some text) := by
  have hRun := foldlM_eq_foldl
    (V := fun table : Table String (List Statement) =>
      (table.get? text).getD [])
    (g := fun known s =>
      known ++ [s].filter fun s => decide (s.owner = some text))
    (fun table s _ after hStep => by
      simp only [bind_eq_ok_iff, need_eq_ok_iff] at hStep
      rcases hStep with ⟨owner, hOwner, hAfter⟩
      cases hAfter
      rw [Table.get?_insert]
      by_cases hText : text = owner
      · simp [hOwner, hText]
      · have hOther : ¬owner = text := fun h => hText h.symm
        simp [hOwner, hText, hOther])
    hBodies
  rw [hRun, List.foldl_append_eq_append, ← List.flatMap_def,
    ← List.filter_flatMap, List.flatMap_singleton']
  simp

theorem mem_keys_byMethod_iff
    {statements : List Statement}
    {bodies : Table String (List Statement)}
    (hBodies : byMethod statements = .ok bodies)
    (text : String) :
    text ∈ bodies.keys ↔
      ∃ s ∈ statements, s.owner = some text := by
  have hRun := foldlM_iff
    (M := fun table : Table String (List Statement) =>
      text ∈ table.keys)
    (E := fun s : Statement => s.owner = some text)
    (fun table s _ after hStep => by
      simp only [bind_eq_ok_iff, need_eq_ok_iff] at hStep
      rcases hStep with ⟨owner, hOwner, hAfter⟩
      cases hAfter
      rw [Table.mem_keys_iff, Table.mem_keys_iff,
        Table.get?_insert, hOwner]
      by_cases hText : text = owner
      · simp [hText]
      · have hOther : ¬owner = text := fun h => hText h.symm
        simp [hText, hOther])
    hBodies
  simpa using hRun

/- The body of a method is made of all its statements. -/
theorem get?_byMethod_iff
    {statements : List Statement}
    {bodies : Table String (List Statement)}
    (hBodies : byMethod statements = .ok bodies)
    (text : String)
    (body : List Statement) :
    bodies.get? text = some body ↔
      (∃ s ∈ statements, s.owner = some text) ∧
        body = statements.filter fun s =>
          decide (s.owner = some text) := by
  rw [← mem_keys_byMethod_iff hBodies, Table.mem_keys_iff,
    ← getD_get?_byMethod hBodies]
  cases bodies.get? text <;> simp [eq_comm]

------------------------------------------------------------
-- Bodies
------------------------------------------------------------

/- What a body does: its method and the effects, in order. -/
def bodyOf
    (symbols : Symbols)
    (body : String × List Statement) :
    Except MissingKey (Signature × List Effect) := do
  let signature ← need body.1 (symbols.signatures.get? body.1)
  return (signature,
    ← Frame.effects symbols signature.owner body.2)

/- What the bodies of a file do. -/
def bodiesOf
    (symbols : Symbols)
    (f : FileSummary) :
    Except MissingKey (List (Signature × List Effect)) := do
  let bodies ← byMethod (← need "stmts" f.statements)
  bodies.entries.mapM (bodyOf symbols)

/- A file is resolved body by body. -/
theorem exists_table_of_bodiesOf
    {symbols : Symbols}
    {f : FileSummary}
    {ofFile : List (Signature × List Effect)}
    (hBodies : bodiesOf symbols f = .ok ofFile) :
    ∃ table, byMethod (f.statements.getD []) = .ok table ∧
      (∀ entry ∈ table.entries,
        entry.2 = statementsOf f entry.1) ∧
      List.Forall₂ (fun entry body =>
        bodyOf symbols entry = .ok body) table.entries
          ofFile := by
  simp only [bodiesOf, bind_eq_ok_iff, need_eq_ok_iff] at hBodies
  rcases hBodies with
    ⟨statements, hStatements, table, hTable, hEntries⟩
  refine ⟨table, by rwa [hStatements], ?_,
    forall₂_of_mapM_eq_ok hEntries⟩
  rintro ⟨text, body⟩ hEntry
  have hBody := (Table.get?_eq_some_iff _ _ _).mpr hEntry
  rw [statementsOf, hStatements]
  exact ((get?_byMethod_iff hTable text body).mp hBody).2

/- Add what a body does. -/
def addEffects
    (r : Resolution)
    (body : Signature × List Effect) : Resolution :=
  let facts :=
    (r.facts.get? body.1).getD { signature := body.1 }
  let result := body.2.foldl BodyResult.add { facts }
  let r := result.externals.foldl addExternal r
  { r with
    facts := r.facts.insert body.1 result.facts
    unresolved := r.unresolved + result.unresolved
    events := r.events ++ result.events }

/- The facts of each method are stored under its signature. -/
def OwnFacts
    (r : Resolution) : Prop :=
  ∀ sig f, r.facts.get? sig = some f → f.signature = sig

theorem OwnFacts.signature_getD
    (hOwn : r.OwnFacts)
    (sig : Signature) :
    ((r.facts.get? sig).getD { signature := sig }).signature =
      sig := by
  cases hFacts : r.facts.get? sig with
  | none => rfl
  | some f => exact hOwn sig f hFacts

/- A body is added by adding what it does. -/
theorem addBody_eq
    (hOwn : r.OwnFacts)
    (body : String × List Statement) :
    r.addBody body =
      (bodyOf r.symbols body).map r.addEffects := by
  unfold addBody bodyOf
  cases r.symbols.signatures.get? body.1 with
  | none => rfl
  | some sig =>
      simp only [need_some, bind, Except.bind]
      rw [Frame.run_eq, hOwn.signature_getD sig]
      cases Frame.effects r.symbols sig.owner body.2 <;> rfl

theorem foldl_addExternal
    (added : List Signature)
    (r : Resolution) :
    ∃ externals,
      added.foldl addExternal r = { r with externals } ∧
        ∀ s, s ∈ externals ↔ s ∈ r.externals ∨ s ∈ added := by
  induction added generalizing r with
  | nil => exact ⟨r.externals, rfl, by simp⟩
  | cons a rest ih =>
      rcases ih (r.addExternal a) with ⟨externals, hRun, hMem⟩
      refine ⟨externals, hRun, ?_⟩
      intro s
      rw [hMem, addExternal]
      by_cases hKnown : a ∈ r.externals
      · grind
      · grind

/- What a body adds, part by part. -/
theorem addEffects_spec
    (r : Resolution)
    (body : Signature × List Effect) :
    (r.addEffects body).symbols = r.symbols ∧
      (r.addEffects body).facts =
        r.facts.insert body.1 (body.2.foldl BodyResult.add
          { facts := (r.facts.get? body.1).getD
              { signature := body.1 } }).facts ∧
      (∀ s, s ∈ (r.addEffects body).externals ↔
        s ∈ r.externals ∨ ∃ e ∈ body.2, e.external? = some s) ∧
      (r.addEffects body).unresolved =
        r.unresolved + body.2.countP Effect.isUnknownCall := by
  rcases BodyResult.foldl_add_spec body.2
      { facts := (r.facts.get? body.1).getD
          { signature := body.1 } } with
    ⟨-, hExternals, hCount⟩
  rcases foldl_addExternal
      ([] ++ body.2.filterMap Effect.external?) r with
    ⟨externals, hRun, hMem⟩
  simp only [addEffects, hExternals, hCount, hRun, true_and]
  refine ⟨?_, ?_⟩
  · intro s
    simpa using hMem s
  · simp

theorem OwnFacts.addEffects
    (hOwn : r.OwnFacts)
    (body : Signature × List Effect) :
    (r.addEffects body).OwnFacts := by
  intro sig f hFacts
  rw [(r.addEffects_spec body).2.1] at hFacts
  rcases Table.get?_insert_cases hFacts with
    ⟨rfl, rfl⟩ | hOld
  · rw [(BodyResult.foldl_add_spec body.2 _).1]
    exact hOwn.signature_getD body.1
  · exact hOwn sig f hOld

/- A file is added by adding what its bodies do. -/
theorem addFile_eq
    (hOwn : r.OwnFacts)
    (f : FileSummary) :
    r.addFile f =
      (bodiesOf r.symbols f).map fun bodies =>
        bodies.foldl Resolution.addEffects r := by
  unfold addFile bodiesOf
  cases f.statements with
  | none => rfl
  | some statements =>
      simp only [need_some, bind, Except.bind]
      cases byMethod statements with
      | error e => rfl
      | ok bodies =>
          refine foldlM_eq_mapM
            (P := fun other =>
              other.symbols = r.symbols ∧ other.OwnFacts)
            ?_ ?_ bodies.entries ⟨rfl, hOwn⟩
          · rintro other body ⟨hSymbols, hOther⟩
            rw [← hSymbols]
            exact addBody_eq hOther body
          · rintro other body ⟨hSymbols, hOther⟩
            refine ⟨?_, hOther.addEffects body⟩
            rw [(other.addEffects_spec body).1, hSymbols]

------------------------------------------------------------
-- Resolutions
------------------------------------------------------------

/- The resolution of a project before its bodies are read. -/
def start
    (symbols : Symbols) : Resolution where
  symbols
  facts := .ofList
    ((symbols.methods.values.flatten.map (·.signature)).map
      fun signature => (signature, { signature }))

theorem get?_facts_start
    {symbols : Symbols}
    {sig : Signature}
    {f : MethodFacts}
    (hFacts : (start symbols).facts.get? sig = some f) :
    f = { signature := sig } := by
  rcases List.mem_map.mp (Table.mem_of_get?_ofList hFacts) with
    ⟨s, -, hEntry⟩
  cases hEntry
  rfl

theorem foldl_addEffects_symbols
    (bodies : List (Signature × List Effect))
    (r : Resolution) :
    (bodies.foldl addEffects r).symbols = r.symbols := by
  induction bodies generalizing r with
  | nil => rfl
  | cons body rest ih =>
      rw [List.foldl_cons, ih, (r.addEffects_spec body).1]

theorem foldl_addEffects_unresolved
    (bodies : List (Signature × List Effect))
    (r : Resolution) :
    (bodies.foldl addEffects r).unresolved =
      r.unresolved + (bodies.flatMap Prod.snd).countP
        Effect.isUnknownCall := by
  induction bodies generalizing r with
  | nil => rfl
  | cons body rest ih =>
      rw [List.foldl_cons, ih, (r.addEffects_spec body).2.2.2,
        List.flatMap_cons, List.countP_append, Nat.add_assoc]

theorem OwnFacts.foldl_addEffects
    (hOwn : r.OwnFacts)
    (bodies : List (Signature × List Effect)) :
    (bodies.foldl Resolution.addEffects r).OwnFacts := by
  induction bodies generalizing r with
  | nil => exact hOwn
  | cons body rest ih => exact ih (hOwn.addEffects body)

/-
  A resolution adds up bodies, which are those of the files,
  each resolved with the symbols of all files.
-/
structure Resolves
    (files : List FileSummary)
    (bodies : List (Signature × List Effect))
    (r : Resolution) : Prop where
  symbols_eq : Symbols.ofFiles files = .ok r.symbols
  bodies_eq :
    (files.mapM (bodiesOf r.symbols)).map List.flatten =
      .ok bodies
  eq_foldl : r = bodies.foldl addEffects (start r.symbols)

theorem ownFacts_start
    (symbols : Symbols) :
    (start symbols).OwnFacts := by
  intro sig f hFacts
  rw [get?_facts_start hFacts]

theorem foldlM_addFile
    (symbols : Symbols)
    (files : List FileSummary) :
    files.foldlM addFile (start symbols) =
      (files.mapM (bodiesOf symbols)).map fun bodies =>
        bodies.flatten.foldl addEffects (start symbols) := by
  simp only [List.foldl_flatten]
  refine foldlM_eq_mapM
    (P := fun r => r.symbols = symbols ∧ r.OwnFacts)
    ?_ ?_ files ⟨rfl, ownFacts_start symbols⟩
  · rintro r f ⟨rfl, hOwn⟩
    exact addFile_eq hOwn f
  · rintro r bodies ⟨rfl, hOwn⟩
    exact ⟨foldl_addEffects_symbols bodies r,
      hOwn.foldl_addEffects bodies⟩

/- Files are resolved by resolving all their bodies. -/
theorem ofFiles_eq_ok_iff :
    ofFiles files = .ok r ↔
      ∃ bodies, Resolves files bodies r := by
  have hRun (symbols : Symbols) :
      files.foldlM addFile (start symbols) = .ok r ↔
        ∃ found, files.mapM (bodiesOf symbols) = .ok found ∧
          found.flatten.foldl addEffects (start symbols) = r := by
    rw [foldlM_addFile, map_eq_ok_iff]
  constructor
  · intro hResolved
    rcases bind_eq_ok_iff.mp hResolved with
      ⟨symbols, hSymbols, hFiles⟩
    rcases (hRun symbols).mp hFiles with ⟨found, hFound, rfl⟩
    have hSame := foldl_addEffects_symbols found.flatten
      (start symbols)
    refine ⟨found.flatten, ?_, ?_, ?_⟩
    · rw [hSame]
      exact hSymbols
    · rw [hSame]
      exact map_eq_ok_iff.mpr ⟨found, hFound, rfl⟩
    · rw [hSame]
      rfl
  · rintro ⟨bodies, hSymbols, hBodies, hResult⟩
    rcases map_eq_ok_iff.mp hBodies with ⟨found, hFound, rfl⟩
    exact bind_eq_ok_iff.mpr ⟨r.symbols, hSymbols,
      (hRun r.symbols).mpr ⟨found, hFound, hResult.symm⟩⟩

namespace Resolves

variable {bodies : List (Signature × List Effect)}

------------------------------------------------------------
-- Facts
------------------------------------------------------------

/- A body that is added is one of a file. -/
theorem exists_of_mem
    (hResolves : Resolves files bodies r)
    {body : Signature × List Effect}
    (hMem : body ∈ bodies) :
    ∃ f ∈ files, ∃ text,
      bodyOf r.symbols (text, statementsOf f text) =
        .ok body := by
  rcases map_eq_ok_iff.mp hResolves.bodies_eq with
    ⟨found, hFound, rfl⟩
  rcases List.mem_flatten.mp hMem with ⟨ofFile, hFile, hBody⟩
  rcases exists_of_mem_right (forall₂_of_mapM_eq_ok hFound)
      hFile with
    ⟨f, hf, hBodies⟩
  rcases exists_table_of_bodiesOf hBodies with
    ⟨table, -, hOwn, hEntries⟩
  rcases exists_of_mem_right hEntries hBody with
    ⟨entry, hEntry, hOf⟩
  refine ⟨f, hf, entry.1, ?_⟩
  rw [← hOwn entry hEntry]
  exact hOf

/- The method of a body is one of the project. -/
theorem declares
    (hResolves : Resolves files bodies r)
    {body : Signature × List Effect}
    (hMem : body ∈ bodies) :
    r.symbols.Declares body.1 := by
  rcases hResolves.exists_of_mem hMem with
    ⟨f, -, text, hOf⟩
  simp only [bodyOf, bind_eq_ok_iff, need_eq_ok_iff] at hOf
  rcases hOf with ⟨sig, hFound, effects, -, hBody⟩
  cases hBody
  exact Symbols.declares_of_signatures hResolves.symbols_eq
    hFound

/- What a body calls is a method that can be found. -/
theorem finds
    (hResolves : Resolves files bodies r)
    {body : Signature × List Effect}
    (hMem : body ∈ bodies)
    {t : Target}
    {caught : List String}
    (hCall : Effect.call t caught ∈ body.2) :
    r.symbols.Finds t := by
  rcases hResolves.exists_of_mem hMem with
    ⟨f, -, text, hOf⟩
  simp only [bodyOf, bind_eq_ok_iff, need_eq_ok_iff] at hOf
  rcases hOf with ⟨sig, -, effects, hEffects, hBody⟩
  cases hBody
  exact Frame.finds_of_mem_effects hResolves.symbols_eq hEffects
    hCall

theorem ownFacts
    (hResolves : Resolves files bodies r) :
    r.OwnFacts := by
  rw [hResolves.eq_foldl]
  exact (ownFacts_start r.symbols).foldl_addEffects bodies

/- The methods with facts are the declared ones. -/
theorem mem_keys_facts_iff
    (hResolves : Resolves files bodies r)
    (sig : Signature) :
    sig ∈ r.facts.keys ↔ r.symbols.Declares sig := by
  have hStart :
      sig ∈ (start r.symbols).facts.keys ↔
        r.symbols.Declares sig := by
    rw [start, Table.mem_keys_ofList, List.map_map]
    refine Iff.trans ?_
      (Symbols.mem_declared_iff hResolves.symbols_eq sig)
    simp
  have hRun := foldl_iff
    (M := fun r : Resolution => sig ∈ r.facts.keys)
    (E := fun body => sig = body.1)
    (fun r body => by
      rw [(r.addEffects_spec body).2.1, Table.mem_keys_iff,
        Table.mem_keys_iff, Table.get?_insert]
      by_cases hSame : sig = body.1 <;> simp [hSame])
    bodies (start r.symbols)
  rw [← hResolves.eq_foldl, hStart] at hRun
  rw [hRun]
  refine ⟨?_, .inl⟩
  rintro (hDeclares | ⟨body, hMem, rfl⟩)
  · exact hDeclares
  · exact hResolves.declares hMem

/- The facts of a method say what its bodies do. -/
theorem has_iff
    (hResolves : Resolves files bodies r)
    (sig : Signature)
    (mark : Mark) :
    (∃ f, r.facts.get? sig = some f ∧ f.Has mark) ↔
      ∃ body ∈ bodies,
        body.1 = sig ∧ ∃ e ∈ body.2, e.Makes mark := by
  have hRun := foldl_iff
    (M := fun r : Resolution =>
      ∃ f, r.facts.get? sig = some f ∧ f.Has mark)
    (E := fun body : Signature × List Effect =>
      body.1 = sig ∧ ∃ e ∈ body.2, e.Makes mark)
    (fun r body => by
      rw [(r.addEffects_spec body).2.1, Table.get?_insert]
      by_cases hSame : sig = body.1
      · subst hSame
        simp only [if_true, Option.some.injEq, exists_eq_left',
          BodyResult.has_foldl_add_iff, true_and]
        cases r.facts.get? body.1 with
        | none => simp [MethodFacts.not_has_bare]
        | some f => simp
      · have hOther : ¬body.1 = sig := fun h => hSame h.symm
        simp [hSame, hOther])
    bodies (start r.symbols)
  rw [← hResolves.eq_foldl] at hRun
  rw [hRun]
  refine ⟨?_, .inr⟩
  rintro (⟨f, hFacts, hHas⟩ | hBody)
  · rw [get?_facts_start hFacts] at hHas
    exact absurd hHas (MethodFacts.not_has_bare sig mark)
  · exact hBody

/- The methods outside are those that some body calls. -/
theorem mem_externals_iff
    (hResolves : Resolves files bodies r)
    (s : Signature) :
    s ∈ r.externals ↔
      ∃ body ∈ bodies, ∃ e ∈ body.2, e.external? = some s := by
  have hRun := foldl_iff
    (M := fun r : Resolution => s ∈ r.externals)
    (fun r body => (r.addEffects_spec body).2.2.1 s)
    bodies (start r.symbols)
  rw [← hResolves.eq_foldl] at hRun
  simpa [start] using hRun

/- The calls that are not resolved are those of all bodies. -/
theorem unresolved_eq
    (hResolves : Resolves files bodies r) :
    r.unresolved =
      (bodies.flatMap Prod.snd).countP
        Effect.isUnknownCall := by
  rw [hResolves.eq_foldl, foldl_addEffects_unresolved]
  exact Nat.zero_add _

end Resolves

end Resolution

end Uncaught
