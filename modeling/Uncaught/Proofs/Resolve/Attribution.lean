import Mathlib.Data.Multiset.AddSub
import Uncaught.Proofs.Resolve.Rethrows
import Uncaught.Proofs.Resolve.Totality

/-
  What becomes of the statements of a project. Each call is
  either counted as not resolved, or its target is a call of the
  method that the statement belongs to; and the facts of a
  method say nothing that no statement of it says, in whatever
  files its statements stand.

  Key definitions include:
    * `Statement.isCall`
    * `Frame.targetOf?`
    * `Frame.Calls`
    * `Frame.Throws`
    * `Resolution.bodyAt`
    * `Resolution.StatementOf`
    * `Resolution.isUnresolved`
    * `Resolution.SaysExactly`

  Main declarations:
    * `Frame.effect_cases`
    * `Frame.makes_iff_calls`
    * `Frame.makes_iff_throws`
    * `Resolution.perm_of_byMethod`
    * `Resolution.Resolves.has_iff_statementOf`
    * `Resolution.Resolves.unresolved_eq_length`
    * `Resolution.Resolves.saysExactly`
    * `Resolution.statements_accounted`
-/

namespace Uncaught

open Symbols (Target)

------------------------------------------------------------
-- Statements
------------------------------------------------------------

/- Whether a statement calls a method or a constructor. -/
def Statement.isCall
    (s : Statement) : Bool :=
  decide (s.kind = some .create
    ∨ s.kind = some .construct
    ∨ s.kind = some .call)

namespace Frame

variable {frame : Frame} {s : Statement}

/- What a statement runs, if it calls something. -/
def targetOf?
    (f : Frame)
    (s : Statement) : Except MissingKey (Option Target) := do
  f.target? (← need "kind" s.kind) (← need "parts" s.parts)

/-
  A statement calls a method inside handlers for some classes,
  which the body names.
-/
def Calls
    (f : Frame)
    (s : Statement)
    (callee : Signature)
    (caught : List String) : Prop :=
  s.isCall = true ∧
    ∃ t, f.targetOf? s = .ok (some t) ∧
      t.signature = callee ∧
      ∃ handlers,
        s.parts.bind Parts.handlers = some handlers ∧
          handlers.map f.exceptionClass = caught

/- A statement throws a class that the body names. -/
def Throws
    (f : Frame)
    (s : Statement)
    (exc : String) : Prop :=
  s.kind = some .throwing ∧
    ∃ parts, s.parts = some parts ∧
      f.thrown? parts = .ok (some exc)

/- What a statement can do, by its kind. -/
theorem effect_cases
    {e : Effect}
    (hEffect : frame.effect s = .ok e) :
    (s.kind = some .declare ∧ e = .silent) ∨
    (s.kind = some .throwing ∧
      ∃ parts, s.parts = some parts ∧
        ∃ class?, frame.thrown? parts = .ok class? ∧
          e = class?.elim (.unknownThrow s.line) .thrown) ∨
    (s.isCall = true ∧ frame.targetOf? s = .ok none ∧
      e = .unknownCall s.line) ∨
    (s.isCall = true ∧
      ∃ t handlers, frame.targetOf? s = .ok (some t) ∧
        s.parts.bind Parts.handlers = some handlers ∧
        e = .call t (handlers.map frame.exceptionClass)) := by
  simp only [effect, bind_eq_ok_iff, need_eq_ok_iff] at hEffect
  rcases hEffect with ⟨kind, hKind, parts, hParts, hEffect⟩
  have hTargetOf :
      frame.targetOf? s = frame.target? kind parts := by
    simp [targetOf?, hKind, hParts, need, bind, Except.bind]
  split at hEffect
  · cases hEffect
    exact .inl ⟨hKind, rfl⟩
  · rcases bind_eq_ok_iff.mp hEffect with
      ⟨class?, hThrown, hEffect⟩
    refine .inr (.inl ⟨hKind, parts, hParts, class?, hThrown, ?_⟩)
    cases class? <;> cases hEffect <;> rfl
  · next hNoDeclare hNoThrow =>
      have hCall : s.isCall = true := by
        cases kind <;> simp_all [Statement.isCall]
      rw [← hTargetOf] at hEffect
      rcases bind_eq_ok_iff.mp hEffect with
        ⟨target, hTarget, hEffect⟩
      cases target with
      | none =>
          cases hEffect
          exact .inr (.inr (.inl ⟨hCall, hTarget, rfl⟩))
      | some t =>
          simp only [bind_eq_ok_iff, need_eq_ok_iff] at hEffect
          rcases hEffect with ⟨handlers, hHandlers, hEffect⟩
          cases hEffect
          refine .inr (.inr (.inr ⟨hCall, t, handlers, hTarget,
            ?_, rfl⟩))
          rw [hParts, Option.bind_some, hHandlers]

theorem calls_iff
    {e : Effect}
    (hEffect : frame.effect s = .ok e)
    (callee : Signature)
    (caught : List String) :
    frame.Calls s callee caught ↔
      ∃ t, e = .call t caught ∧ t.signature = callee := by
  rcases effect_cases hEffect with
    ⟨hKind, rfl⟩ | ⟨hKind, parts, -, class?, -, rfl⟩ |
    ⟨-, hTarget, rfl⟩ | ⟨hCall, t, handlers, hTarget, hOf, rfl⟩
  · simp [Calls, Statement.isCall, hKind]
  · cases class? <;> simp [Calls, Statement.isCall, hKind]
  · simp [Calls, hTarget]
  · simp only [Calls, hCall, hTarget, hOf, true_and,
      Except.ok.injEq, Option.some.injEq, exists_eq_left',
      Effect.call.injEq, and_assoc]
    rw [and_comm]

/- A call that has a target calls it. -/
theorem exists_calls_of_effect
    {e : Effect}
    (hEffect : frame.effect s = .ok e)
    (hCall : s.isCall = true)
    (hTarget : ¬frame.targetOf? s = .ok none) :
    ∃ callee caught, frame.Calls s callee caught := by
  rcases effect_cases hEffect with
    ⟨hKind, -⟩ | ⟨hKind, -⟩ | ⟨-, hNone, -⟩ |
    ⟨-, t, handlers, hFound, hOf, -⟩
  · simp [Statement.isCall, hKind] at hCall
  · simp [Statement.isCall, hKind] at hCall
  · exact absurd hNone hTarget
  · exact ⟨t.signature, _, hCall, t, hFound, rfl, handlers, hOf,
      rfl⟩

/- The marks of a call, by the call that the statement is. -/
theorem makes_iff_calls
    {e : Effect}
    (hEffect : frame.effect s = .ok e)
    (callee : Signature) :
    (e.Makes (.calls callee) ↔
      ∃ caught, frame.Calls s callee caught) ∧
    (e.Makes (.guards callee) ↔
      ∃ caught, frame.Calls s callee caught ∧ caught ≠ []) ∧
    ∀ exc, e.Makes (.catches callee exc) ↔
      ∃ caught, frame.Calls s callee caught ∧ exc ∈ caught := by
  simp only [calls_iff hEffect]
  cases e with
  | call t caught =>
      refine ⟨?_, ?_, fun exc => ?_⟩ <;>
        simp [Effect.Makes, and_comm]
  | _ => simp [Effect.Makes]

theorem makes_iff_throws
    {e : Effect}
    (hEffect : frame.effect s = .ok e)
    (exc : String) :
    e.Makes (.throws exc) ↔ frame.Throws s exc := by
  rcases effect_cases hEffect with
    ⟨hKind, rfl⟩ | ⟨hKind, parts, hParts, class?, hThrown, rfl⟩ |
    ⟨hCall, -, rfl⟩ | ⟨hCall, t, handlers, -, -, rfl⟩
  · simp [Throws, hKind, Effect.Makes]
  · cases class? <;>
      simp [Throws, hKind, hParts, hThrown, Effect.Makes]
  all_goals
    have hKind : s.kind ≠ some .throwing := by
      intro hKind
      simp [Statement.isCall, hKind] at hCall
    simp [Throws, hKind, Effect.Makes]

theorem isUnknownCall_iff
    {e : Effect}
    (hEffect : frame.effect s = .ok e) :
    e.isUnknownCall = true ↔
      s.isCall = true ∧ frame.targetOf? s = .ok none := by
  rcases effect_cases hEffect with
    ⟨hKind, rfl⟩ | ⟨hKind, parts, -, class?, -, rfl⟩ |
    ⟨hCall, hTarget, rfl⟩ | ⟨hCall, t, handlers, hTarget, -, rfl⟩
  · simp [Effect.isUnknownCall, Statement.isCall, hKind]
  · cases class? <;>
      simp [Effect.isUnknownCall, Statement.isCall, hKind]
  · simp [Effect.isUnknownCall, hCall, hTarget]
  · simp [Effect.isUnknownCall, hTarget]

end Frame

------------------------------------------------------------
-- Bodies
------------------------------------------------------------

/- Lists that agree item by item agree in what they count. -/
theorem countP_flatMap_eq
    {α β γ δ : Type}
    {R : α → β → Prop}
    {left : List α}
    {right : List β}
    {f : α → List γ}
    {g : β → List δ}
    {p : γ → Bool}
    {q : δ → Bool}
    (hRelated : List.Forall₂ R left right)
    (hCount :
      ∀ a ∈ left, ∀ b, R a b → (f a).countP p = (g b).countP q) :
    (left.flatMap f).countP p = (right.flatMap g).countP q := by
  induction hRelated with
  | nil => rfl
  | cons hHead _ ih =>
      have hRest := ih fun a ha =>
        hCount a (List.mem_cons_of_mem _ ha)
      rw [List.flatMap_cons, List.flatMap_cons,
        List.countP_append, List.countP_append,
        hCount _ List.mem_cons_self _ hHead, hRest]

/- An item that is added under a key is one item more. -/
theorem Table.perm_flatMap_insert
    {κ α : Type}
    [DecidableEq κ]
    (k : κ)
    (a : α)
    (entries : List (κ × List α)) :
    ((Entries.insert k ((entries.lookup k).getD [] ++ [a])
      entries).flatMap Prod.snd).Perm
        (a :: entries.flatMap Prod.snd) := by
  induction entries with
  | nil => simp [Entries.insert]
  | cons entry rest ih =>
      obtain ⟨k', known⟩ := entry
      by_cases hSame : k' = k
      · subst hSame
        simp only [Entries.insert, if_true,
          List.lookup_cons_self, Option.getD_some,
          List.flatMap_cons]
        exact (List.perm_append_singleton a known).append_right _
      · have hOther : (k == k') = false := by
          simpa using fun h => hSame h.symm
        simp only [Entries.insert, if_neg hSame,
          List.lookup_cons, hOther, List.flatMap_cons]
        exact (ih.append_left known).trans List.perm_middle

/- Items that are put in one by one are all there. -/
theorem foldl_cons_eq_add
    {α : Type}
    (items : List α)
    (known : Multiset α) :
    items.foldl (fun known a => a ::ₘ known) known =
      Multiset.ofList items + known := by
  induction items generalizing known with
  | nil => exact (Multiset.zero_add known).symm
  | cons a rest ih =>
      rw [List.foldl_cons, ih, ← Multiset.cons_coe,
        Multiset.cons_add, Multiset.add_cons]

namespace Resolution

variable {files : List FileSummary} {r : Resolution}
variable {bodies : List (Signature × List Effect)}

/- The bodies of a file have its statements, each once. -/
theorem perm_of_byMethod
    {statements : List Statement}
    {table : Table String (List Statement)}
    (hTable : byMethod statements = .ok table) :
    (table.entries.flatMap Prod.snd).Perm statements := by
  have hRun := foldlM_eq_foldl
    (V := fun table : Table String (List Statement) =>
      Multiset.ofList (table.entries.flatMap Prod.snd))
    (g := fun known s => s ::ₘ known)
    (fun table s _ after hStep => by
      simp only [bind_eq_ok_iff, need_eq_ok_iff] at hStep
      rcases hStep with ⟨owner, -, hAfter⟩
      cases hAfter
      exact Multiset.coe_eq_coe.mpr
        (Table.perm_flatMap_insert owner s table.entries))
    hTable
  have hAll := foldl_cons_eq_add statements 0
  rw [Multiset.add_zero] at hAll
  exact Multiset.coe_eq_coe.mp (hRun.trans hAll)

/-
  The method that a statement of a file belongs to, and the
  frame of its body.
-/
def bodyAt
    (symbols : Symbols)
    (f : FileSummary)
    (s : Statement) : Except MissingKey (Signature × Frame) := do
  let text ← need "owner_method" s.owner
  let method ← need text (symbols.signatures.get? text)
  return (method,
    ← Frame.ofBody symbols method.owner (statementsOf f text))

/- A statement of some file, in the body of a method. -/
def StatementOf
    (files : List FileSummary)
    (symbols : Symbols)
    (method : Signature)
    (frame : Frame)
    (s : Statement) : Prop :=
  ∃ f ∈ files, s ∈ f.statements.getD [] ∧
    bodyAt symbols f s = .ok (method, frame)

/- Whether a statement of a file is a call without a target. -/
def isUnresolved
    (symbols : Symbols)
    (f : FileSummary)
    (s : Statement) : Bool :=
  s.isCall && match bodyAt symbols f s >>= (·.2.targetOf? s) with
    | .ok none => true
    | _ => false

theorem bodyAt_eq_ok_iff
    {symbols : Symbols}
    {f : FileSummary}
    {s : Statement}
    {method : Signature}
    {frame : Frame} :
    bodyAt symbols f s = .ok (method, frame) ↔
      ∃ text, s.owner = some text ∧
        symbols.signatures.get? text = some method ∧
        Frame.ofBody symbols method.owner (statementsOf f text) =
          .ok frame := by
  simp only [bodyAt, bind_eq_ok_iff, need_eq_ok_iff]
  constructor
  · rintro ⟨text, hText, found, hFound, frame', hFrame, hPair⟩
    cases hPair
    exact ⟨text, hText, hFound, hFrame⟩
  · rintro ⟨text, hText, hFound, hFrame⟩
    exact ⟨text, hText, method, hFound, frame, hFrame, rfl⟩

theorem isUnresolved_iff
    {symbols : Symbols}
    {f : FileSummary}
    {s : Statement}
    {method : Signature}
    {frame : Frame}
    (hBody : bodyAt symbols f s = .ok (method, frame)) :
    isUnresolved symbols f s = true ↔
      s.isCall = true ∧ frame.targetOf? s = .ok none := by
  rw [isUnresolved, hBody, Bool.and_eq_true]
  change _ ∧ (match frame.targetOf? s with
    | .ok none => true
    | _ => false) = true ↔ _
  rcases frame.targetOf? s with e | (_ | t) <;> simp

/- A body is resolved statement by statement, in its frame. -/
theorem exists_frame_of_bodyOf
    {symbols : Symbols}
    {f : FileSummary}
    {entry : String × List Statement}
    (hOwn : entry.2 = statementsOf f entry.1)
    {body : Signature × List Effect}
    (hBody : bodyOf symbols entry = .ok body) :
    ∃ frame placed,
      placed.Perm entry.2 ∧
      (∀ s ∈ entry.2,
        bodyAt symbols f s = .ok (body.1, frame)) ∧
      List.Forall₂ (fun s e => frame.effect s = .ok e)
        placed body.2 := by
  simp only [bodyOf, bind_eq_ok_iff, need_eq_ok_iff] at hBody
  rcases hBody with ⟨method, hMethod, es, hEffects, hPair⟩
  cases hPair
  rcases bind_eq_ok_iff.mp hEffects with
    ⟨frame, hFrame, hEffects⟩
  rcases bind_eq_ok_iff.mp hEffects with
    ⟨placed, hPlaced, hEffects⟩
  refine ⟨frame, placed, Frame.perm_of_ordered hPlaced, ?_,
    forall₂_of_mapM_eq_ok hEffects⟩
  intro s hMem
  rw [hOwn] at hMem hFrame
  exact bodyAt_eq_ok_iff.mpr ⟨entry.1,
    ((mem_statementsOf_iff f entry.1 s).mp hMem).2, hMethod,
    hFrame⟩

/- The bodies of a file have its calls without a target. -/
theorem countP_of_bodiesOf
    {symbols : Symbols}
    {f : FileSummary}
    {ofFile : List (Signature × List Effect)}
    (hBodies : bodiesOf symbols f = .ok ofFile) :
    (f.statements.getD []).countP (isUnresolved symbols f) =
      (ofFile.flatMap Prod.snd).countP Effect.isUnknownCall := by
  rcases exists_table_of_bodiesOf hBodies with
    ⟨table, hTable, hOwn, hEntries⟩
  rw [← (perm_of_byMethod hTable).countP_eq]
  apply countP_flatMap_eq hEntries
  intro entry hEntry body hBody
  rcases exists_frame_of_bodyOf (hOwn entry hEntry) hBody with
    ⟨frame, placed, hPlaced, hAt, hEffects⟩
  rw [← hPlaced.countP_eq, ← List.flatMap_singleton' placed,
    ← List.flatMap_singleton' body.2]
  apply countP_flatMap_eq hEffects
  intro s hMem e hEffect
  have hSame :
      isUnresolved symbols f s = e.isUnknownCall := by
    rw [Bool.eq_iff_iff, Frame.isUnknownCall_iff hEffect]
    exact isUnresolved_iff (hAt s (hPlaced.mem_iff.mp hMem))
  simp only [List.countP_singleton, hSame]

------------------------------------------------------------
-- Facts
------------------------------------------------------------

namespace Resolves

/-
  The facts of a method say what its statements do: a mark is
  there if some statement is as the mark asks.
-/
theorem has_iff_statementOf
    (hResolves : Resolves files bodies r)
    {method : Signature}
    {facts : MethodFacts}
    (hFacts : r.facts.get? method = some facts)
    {mark : Mark}
    {Q : Frame → Statement → Prop}
    (hMark :
      ∀ {frame s e}, frame.effect s = .ok e →
        (e.Makes mark ↔ Q frame s)) :
    facts.Has mark ↔
      ∃ frame s, StatementOf files r.symbols method frame s ∧
        Q frame s := by
  constructor
  · intro hHas
    rcases hResolves.exists_effect_of_has hFacts mark hHas with
      ⟨f, hFile, text, hSig, frame, hFrame, s, hMem, e, hEffect,
        hMakes⟩
    rcases (mem_statementsOf_iff f text s).mp hMem with
      ⟨hStatement, hOwner⟩
    have hBody := bodyAt_eq_ok_iff.mpr
      ⟨text, hOwner, hSig, hFrame⟩
    exact ⟨frame, s, ⟨f, hFile, hStatement, hBody⟩,
      (hMark hEffect).mp hMakes⟩
  · rintro ⟨frame, s, ⟨f, hFile, hStatement, hBody⟩, hIs⟩
    rcases bodyAt_eq_ok_iff.mp hBody with
      ⟨text, hOwner, hSig, hFrame⟩
    have hMem := (mem_statementsOf_iff f text s).mpr
      ⟨hStatement, hOwner⟩
    rcases hResolves.exists_facts_of_effect hFile hMem hSig
        hFrame mark (fun e hEffect => (hMark hEffect).mpr hIs) with
      ⟨facts', hFacts', hHas⟩
    rw [hFacts] at hFacts'
    cases hFacts'
    exact hHas

/- Each statement stands in a body and does something there. -/
theorem exists_effect
    (hResolves : Resolves files bodies r)
    {f : FileSummary}
    (hFile : f ∈ files)
    {s : Statement}
    (hMem : s ∈ f.statements.getD []) :
    ∃ method frame e,
      bodyAt r.symbols f s = .ok (method, frame) ∧
        frame.effect s = .ok e := by
  rcases map_eq_ok_iff.mp hResolves.bodies_eq with
    ⟨found, hFound, -⟩
  rcases exists_of_mem_left (forall₂_of_mapM_eq_ok hFound)
      hFile with
    ⟨ofFile, -, hBodies⟩
  rcases exists_table_of_bodiesOf hBodies with
    ⟨table, hTable, hOwn, hEntries⟩
  have hPerm := perm_of_byMethod hTable
  rcases List.mem_flatMap.mp (hPerm.mem_iff.mpr hMem) with
    ⟨entry, hEntry, hIn⟩
  rcases exists_of_mem_left hEntries hEntry with
    ⟨body, -, hBody⟩
  rcases exists_frame_of_bodyOf (hOwn entry hEntry) hBody with
    ⟨frame, placed, hPlaced, hAt, hEffects⟩
  rcases exists_of_mem_left hEffects
      (hPlaced.mem_iff.mpr hIn) with
    ⟨e, -, hEffect⟩
  exact ⟨body.1, frame, e, hAt s hIn, hEffect⟩

/- The calls that are not resolved are those without a target. -/
theorem unresolved_eq_length
    (hResolves : Resolves files bodies r) :
    r.unresolved =
      (files.flatMap fun f =>
        (f.statements.getD []).filter
          (isUnresolved r.symbols f)).length := by
  rcases map_eq_ok_iff.mp hResolves.bodies_eq with
    ⟨found, hFound, rfl⟩
  rw [hResolves.unresolved_eq, ← List.flatMap_id,
    List.flatMap_assoc, ← List.countP_true]
  apply (countP_flatMap_eq (forall₂_of_mapM_eq_ok hFound) _).symm
  intro f _ ofFile hOf
  rw [List.countP_true, ← List.countP_eq_length_filter]
  exact countP_of_bodiesOf hOf

end Resolves

------------------------------------------------------------
-- Accounts
------------------------------------------------------------

/-
  The facts of a method are those of its statements in all
  files: its calls are their targets, there are handlers around
  a target if some call of it has one, the handlers are those of
  all calls of the target, and the throws are what they throw.
-/
structure SaysExactly
    (files : List FileSummary)
    (symbols : Symbols)
    (method : Signature)
    (facts : MethodFacts) : Prop where
  calls :
    ∀ target, target ∈ facts.calls ↔
      ∃ frame s, StatementOf files symbols method frame s ∧
        ∃ caught, frame.Calls s target caught
  guards :
    ∀ target, target ∈ facts.handlers.keys ↔
      ∃ frame s, StatementOf files symbols method frame s ∧
        ∃ caught, frame.Calls s target caught ∧ caught ≠ []
  catches :
    ∀ target exc,
      exc ∈ (facts.handlers.get? target).getD [] ↔
        ∃ frame s, StatementOf files symbols method frame s ∧
          ∃ caught, frame.Calls s target caught ∧ exc ∈ caught
  throws :
    ∀ exc, exc ∈ facts.thrown ↔
      ∃ frame s, StatementOf files symbols method frame s ∧
        frame.Throws s exc

namespace Resolves

theorem saysExactly
    (hResolves : Resolves files bodies r)
    {method : Signature}
    {facts : MethodFacts}
    (hFacts : r.facts.get? method = some facts) :
    SaysExactly files r.symbols method facts where
  calls := fun target =>
    hResolves.has_iff_statementOf hFacts fun hEffect =>
      (Frame.makes_iff_calls hEffect target).1
  guards := fun target =>
    hResolves.has_iff_statementOf hFacts fun hEffect =>
      (Frame.makes_iff_calls hEffect target).2.1
  catches := fun target exc =>
    hResolves.has_iff_statementOf hFacts fun hEffect =>
      (Frame.makes_iff_calls hEffect target).2.2 exc
  throws := fun exc =>
    hResolves.has_iff_statementOf hFacts fun hEffect =>
      Frame.makes_iff_throws hEffect exc

/- The method of a body has facts. -/
theorem exists_facts_of_bodyAt
    (hResolves : Resolves files bodies r)
    {f : FileSummary}
    {s : Statement}
    {method : Signature}
    {frame : Frame}
    (hBody : bodyAt r.symbols f s = .ok (method, frame)) :
    ∃ facts, r.facts.get? method = some facts := by
  rcases bodyAt_eq_ok_iff.mp hBody with ⟨text, -, hSig, -⟩
  have hDeclares :=
    Symbols.declares_of_signatures hResolves.symbols_eq hSig
  exact (Table.mem_keys_iff _ _).mp
    ((hResolves.mem_keys_facts_iff method).mpr hDeclares)

end Resolves

/-
  No statement is lost and none is made up. A call is counted
  as not resolved, or its method calls the target and has the
  handlers around it; and the facts of a method are those of its
  statements, in whatever files they stand.
-/
theorem statements_accounted
    (hResolved : Resolution.ofFiles files = .ok r) :
    (∀ f ∈ files, ∀ s ∈ f.statements.getD [],
      s.isCall = true →
      ∃ method frame facts,
        bodyAt r.symbols f s = .ok (method, frame) ∧
        r.facts.get? method = some facts ∧
        (isUnresolved r.symbols f s = false →
          ∃ target caught, frame.Calls s target caught ∧
            target ∈ facts.calls ∧
            ∀ exc ∈ caught,
              exc ∈ (facts.handlers.get? target).getD [])) ∧
    r.unresolved =
      (files.flatMap fun f =>
        (f.statements.getD []).filter
          (isUnresolved r.symbols f)).length ∧
    ∀ method facts, r.facts.get? method = some facts →
      SaysExactly files r.symbols method facts := by
  rcases ofFiles_eq_ok_iff.mp hResolved with
    ⟨bodies, hResolves⟩
  refine ⟨?_, hResolves.unresolved_eq_length,
    fun _ _ => hResolves.saysExactly⟩
  intro f hFile s hMem hCall
  rcases hResolves.exists_effect hFile hMem with
    ⟨method, frame, e, hBody, hEffect⟩
  rcases hResolves.exists_facts_of_bodyAt hBody with
    ⟨facts, hFacts⟩
  refine ⟨method, frame, facts, hBody, hFacts, ?_⟩
  intro hTarget
  have hKnown : ¬frame.targetOf? s = .ok none := by
    intro hNone
    have hMissed := (isUnresolved_iff hBody).mpr ⟨hCall, hNone⟩
    rw [hTarget] at hMissed
    cases hMissed
  rcases Frame.exists_calls_of_effect hEffect hCall hKnown with
    ⟨target, caught, hCalls⟩
  have hExact := hResolves.saysExactly hFacts
  have hSite : StatementOf files r.symbols method frame s :=
    ⟨f, hFile, hMem, hBody⟩
  refine ⟨target, caught, hCalls, ?_, ?_⟩
  · exact (hExact.calls target).mpr
      ⟨frame, s, hSite, caught, hCalls⟩
  · intro exc hExc
    exact (hExact.catches target exc).mpr
      ⟨frame, s, hSite, caught, hCalls, hExc⟩

/- A call of the method `f` on `this`, inside a handler. -/
def callInside
    (handler : String) : Statement :=
  { kind := some .call
    owner := some "M#g()"
    parts := some {
      recv := some none
      name := some "f"
      arity := some 0
      handlers := some [handler] }
    range := some ⟨0, 1⟩ }

/- The creation of an object of a class that is not named. -/
def createUnnamed : Statement :=
  { kind := some .create
    owner := some "M#f()"
    parts := some {
      type := some none
      arity := some 0
      handlers := some [] }
    range := some ⟨0, 1⟩ }

/- A class with two methods, and a part of their bodies. -/
def ownFile : FileSummary :=
  { path := "M.java"
    types := ["E", "F", "M"].map fun fqn =>
      { fqn
        extended := some []
        implemented := some [] }
    methods := some [
      { owner := some "M"
        name := some "f"
        sig := some "M#f()"
        params := some []
        throws := some []
        isConstructor := some false },
      { owner := some "M"
        name := some "g"
        sig := some "M#g()"
        params := some []
        throws := some []
        isConstructor := some false }]
    statements := some [callInside "E"] }

/- A file with the rest of the bodies. -/
def restFile : FileSummary :=
  { path := "N.java"
    types := []
    methods := some []
    statements := some [callInside "F", createUnnamed] }

/- Files that share the bodies of two methods. -/
def sharedBodies : List FileSummary :=
  [ownFile, restFile]

namespace sharedBodies

/- A body of one call knows the variables of the method only. -/
theorem ofBody_singleton
    (symbols : Symbols)
    {owner : String}
    {s : Statement}
    (hCall : s.isCall = true)
    {range : ByteRange}
    (hRange : s.range = some range) :
    Frame.ofBody symbols owner [s] =
      .ok (Frame.start symbols owner) := by
  have hOrdered : Frame.ordered [s] = .ok [s] := by
    simp [Frame.ordered, hRange, need, bind, Except.bind, pure,
      Except.pure]
  rw [Frame.ofBody, hOrdered]
  simp only [Statement.isCall, decide_eq_true_eq] at hCall
  rcases hCall with hKind | hKind | hKind <;>
    simp [Frame.declare, hKind, need, bind, Except.bind, pure,
      Except.pure]

variable {symbols : Symbols}

/- The bodies of the files, and what their statements run. -/
theorem bodyAt_eq
    (hSymbols : Symbols.ofFiles sharedBodies = .ok symbols) :
    bodyAt symbols ownFile (callInside "E") =
        .ok ({ owner := "M", name := "g" }, .start symbols "M") ∧
      bodyAt symbols restFile (callInside "F") =
        .ok ({ owner := "M", name := "g" }, .start symbols "M") ∧
      bodyAt symbols restFile createUnnamed =
        .ok ({ owner := "M", name := "f" },
          .start symbols "M") := by
  have hNames := Symbols.names_of_ofFiles hSymbols
  have hTexts :
      symbols.signatures.get? "M#f()" =
          some { owner := "M", name := "f" } ∧
        symbols.signatures.get? "M#g()" =
          some { owner := "M", name := "g" } := by
    rw [Symbols.signatures_of_ofFiles hSymbols, hNames]
    exact ⟨rfl, rfl⟩
  refine ⟨?_, ?_, ?_⟩
  · exact bodyAt_eq_ok_iff.mpr ⟨"M#g()", rfl, hTexts.2,
      ofBody_singleton symbols rfl rfl⟩
  · exact bodyAt_eq_ok_iff.mpr ⟨"M#g()", rfl, hTexts.2,
      ofBody_singleton symbols rfl rfl⟩
  · exact bodyAt_eq_ok_iff.mpr ⟨"M#f()", rfl, hTexts.1,
      ofBody_singleton symbols rfl rfl⟩

theorem calls
    (hSymbols : Symbols.ofFiles sharedBodies = .ok symbols)
    (handler : String) :
    (Frame.start symbols "M").Calls (callInside handler)
      { owner := "M", name := "f" }
      [(Names.ofFiles sharedBodies).resolveException
        handler (some "M")] := by
  have hNames := Symbols.names_of_ofFiles hSymbols
  have hOwn :
      symbols.ownMethod? "f" 0 "M" =
        some { owner := "M", name := "f" } := by
    rw [Symbols.ownMethod?,
      Symbols.methodsOf_of_ofFiles hSymbols, hNames]
    rfl
  have hDeclares : symbols.names.declares "M" = true := by
    rw [hNames]
    rfl
  have hTarget := Symbols.method?_of_ownMethod? hDeclares hOwn
  refine ⟨rfl, .declared { owner := "M", name := "f" }, ?_, rfl,
    [handler], rfl, ?_⟩
  · change (Except.ok (symbols.method? "M" "f" 0) : Except _ _) = _
    rw [hTarget]
  · change [symbols.names.resolveException handler (some "M")] = _
    rw [hNames]

/- Of the statements, the creation only is not resolved. -/
theorem isUnresolved_eq
    (hSymbols : Symbols.ofFiles sharedBodies = .ok symbols) :
    isUnresolved symbols ownFile (callInside "E") = false ∧
      isUnresolved symbols restFile (callInside "F") = false ∧
      isUnresolved symbols restFile createUnnamed = true := by
  rcases bodyAt_eq hSymbols with ⟨hFirst, hSecond, hThird⟩
  have hTarget (handler : String) :
      ¬(Frame.start symbols "M").targetOf? (callInside handler) =
        .ok none := by
    intro hNone
    rcases calls hSymbols handler with ⟨-, t, hFound, -⟩
    rw [hFound] at hNone
    cases hNone
  refine ⟨?_, ?_, ?_⟩
  · rw [← Bool.not_eq_true, isUnresolved_iff hFirst]
    exact fun h => hTarget _ h.2
  · rw [← Bool.not_eq_true, isUnresolved_iff hSecond]
    exact fun h => hTarget _ h.2
  · exact (isUnresolved_iff hThird).mpr ⟨rfl, rfl⟩

end sharedBodies

/- The facts of a method come from two files. -/
theorem statements_accounted_sharedBodies :
    ∃ r facts,
      Resolution.ofFiles sharedBodies = .ok r ∧
      r.unresolved = 1 ∧
      r.facts.get? { owner := "M", name := "g" } = some facts ∧
      { owner := "M", name := "f" } ∈ facts.calls ∧
      "E" ∈ (facts.handlers.get?
        { owner := "M", name := "f" }).getD [] ∧
      "F" ∈ (facts.handlers.get?
        { owner := "M", name := "f" }).getD [] := by
  have hSucceeds :
      Succeeds (Resolution.ofFiles sharedBodies) :=
    succeeds_ofFiles (by decide) (by decide)
  rcases hSucceeds with ⟨r, hResolved⟩
  rcases ofFiles_eq_ok_iff.mp hResolved with ⟨_, hResolves⟩
  have hSymbols := hResolves.symbols_eq
  rcases sharedBodies.bodyAt_eq hSymbols with ⟨hFirst, hSecond, -⟩
  rcases sharedBodies.isUnresolved_eq hSymbols with
    ⟨hCalled, hCalled', hMissed⟩
  rcases statements_accounted hResolved with
    ⟨hCalls, hCount, hExact⟩
  rcases hCalls ownFile (by simp [sharedBodies])
      (callInside "E") (by simp [ownFile]) rfl with
    ⟨method, frame, facts, hBody, hFacts, -⟩
  rw [hFirst] at hBody
  cases hBody
  have hSays := hExact _ facts hFacts
  have hOwn :
      StatementOf sharedBodies r.symbols
        { owner := "M", name := "g" } (.start r.symbols "M")
        (callInside "E") :=
    ⟨ownFile, by simp [sharedBodies], by simp [ownFile], hFirst⟩
  have hRest :
      StatementOf sharedBodies r.symbols
        { owner := "M", name := "g" } (.start r.symbols "M")
        (callInside "F") :=
    ⟨restFile, by simp [sharedBodies], by simp [restFile],
      hSecond⟩
  have hNamed :
      (Names.ofFiles sharedBodies).resolveException "E"
          (some "M") = "E" ∧
        (Names.ofFiles sharedBodies).resolveException "F"
          (some "M") = "F" := by
    simp only [Names.resolveException]
    rw [Names.resolve?_of_declares rfl (by decide) (by decide),
      Names.resolve?_of_declares rfl (by decide) (by decide)]
    exact ⟨rfl, rfl⟩
  refine ⟨r, facts, hResolved, ?_, hFacts, ?_, ?_, ?_⟩
  · rw [hCount]
    change (([callInside "E"].filter
      (isUnresolved r.symbols ownFile)) ++
        (([callInside "F", createUnnamed].filter
          (isUnresolved r.symbols restFile)) ++ [])).length = 1
    simp [hCalled, hCalled', hMissed]
  · exact (hSays.calls _).mpr
      ⟨_, _, hOwn, _, sharedBodies.calls hSymbols "E"⟩
  · exact (hSays.catches _ _).mpr
      ⟨_, _, hOwn, _, sharedBodies.calls hSymbols "E",
        by rw [hNamed.1]; exact List.mem_singleton.mpr rfl⟩
  · exact (hSays.catches _ _).mpr
      ⟨_, _, hRest, _, sharedBodies.calls hSymbols "F",
        by rw [hNamed.2]; exact List.mem_singleton.mpr rfl⟩

end Resolution

end Uncaught
