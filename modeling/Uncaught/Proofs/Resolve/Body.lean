import Uncaught.Proofs.Records
import Uncaught.Proofs.Resolve.Lookup
import Uncaught.Resolve.Body

/-
  What a method body does, statement by statement. Resolving the
  statements of a body gives their effects; the result of the
  body adds these effects up, and the facts of the method have
  the marks that some effect makes.

  Key definitions include:
    * `Effect`
    * `Frame.effect`
    * `Frame.ofBody`
    * `Frame.effects`
    * `BodyResult.add`
    * `Mark`
    * `MethodFacts.Has`
    * `Effect.Makes`
    * `Statement.declaresName`
    * `Symbols.declaredType?`

  Main declarations:
    * `Frame.perm_of_ordered`
    * `Frame.step_eq`
    * `Frame.run_eq`
    * `MethodFacts.same_iff`
    * `BodyResult.has_foldl_add_iff`
    * `BodyResult.foldl_add_spec`
    * `Frame.declare_spec`
-/

namespace Uncaught

open Symbols (Target)

------------------------------------------------------------
-- Effects
------------------------------------------------------------

/-
  What a resolved statement does: nothing, throw a class, throw
  something unknown, call a method inside handlers, or call
  something unknown.
-/
inductive Effect where
  | silent
  | thrown (exc : String)
  | unknownThrow (line : Option Int)
  | call (target : Target) (caught : List String)
  | unknownCall (line : Option Int)
  deriving DecidableEq, Repr

namespace Effect

/- The method outside of the project that an effect calls. -/
def external? : Effect → Option Signature
  | call (.external s) _ => some s
  | _ => none

/- Whether an effect is a call that is not resolved. -/
def isUnknownCall : Effect → Bool
  | unknownCall _ => true
  | _ => false

end Effect

namespace Frame

/- What a statement does in a frame. -/
def effect
    (f : Frame)
    (s : Statement) : Except MissingKey Effect := do
  let kind ← need "kind" s.kind
  let parts ← need "parts" s.parts
  match kind with
  | .declare => return .silent
  | .throwing =>
      match ← f.thrown? parts with
      | some c => return .thrown c
      | none => return .unknownThrow s.line
  | kind =>
      match ← f.target? kind parts with
      | some t =>
          let handlers ← need "handlers" parts.handlers
          return .call t (handlers.map f.exceptionClass)
      | none => return .unknownCall s.line

/- The frame of a body, with all its declarations. -/
def ofBody
    (symbols : Symbols)
    (owner : String)
    (statements : List Statement) : Except MissingKey Frame := do
  (← ordered statements).foldlM declare (start symbols owner)

/- What the statements of a body do, in the order of places. -/
def effects
    (symbols : Symbols)
    (owner : String)
    (statements : List Statement) :
    Except MissingKey (List Effect) := do
  let frame ← ofBody symbols owner statements
  (← ordered statements).mapM frame.effect

end Frame

/- Add an effect to what is known of a body. -/
def BodyResult.add
    (r : BodyResult) : Effect → BodyResult
  | .silent => r
  | .thrown c => { r with facts := r.facts.addThrow c }
  | .unknownThrow line =>
      { r with events := r.events
          ++ [.unresolvedThrow r.facts.signature line] }
  | .call t caught => (r.noteExternal t).addCall t caught
  | .unknownCall line =>
      { r with
        unresolved := r.unresolved + 1
        events := r.events
          ++ [.unresolvedCall r.facts.signature line] }

namespace Frame

/- Putting statements in order leaves none out. -/
theorem perm_of_ordered
    {statements placed : List Statement}
    (hOrdered : ordered statements = .ok placed) :
    placed.Perm statements := by
  rcases bind_eq_ok_iff.mp hOrdered with
    ⟨pairs, hPairs, hPlaced⟩
  cases hPlaced
  have hSame : pairs.map Prod.snd = statements := by
    have hRelated := forall₂_of_mapM_eq_ok hPairs
    clear hPairs hOrdered
    induction hRelated with
    | nil => rfl
    | cons hHead _ ih =>
        rcases bind_eq_ok_iff.mp hHead with ⟨range, -, hPair⟩
        cases hPair
        rw [List.map_cons, ih]
  have hSorted :=
    (List.mergeSort_perm pairs
      fun a b => decide (a.1 ≤ b.1)).map Prod.snd
  rwa [hSame] at hSorted

/- A step adds the effect of its statement. -/
theorem step_eq
    (f : Frame)
    (r : BodyResult)
    (s : Statement) :
    f.step r s = (f.effect s).map r.add := by
  unfold step effect
  cases s.kind with
  | none => rfl
  | some kind =>
      cases s.parts with
      | none => rfl
      | some parts =>
          simp only [need, bind, Except.bind]
          -- the kinds of calls differ in their targets only
          cases kind with
          | declare => rfl
          | throwing =>
              rcases f.thrown? parts with e | (_ | c) <;> rfl
          | _ =>
              dsimp only
              rcases f.target? _ parts with e | (_ | t)
              · rfl
              · rfl
              · cases parts.handlers <;> rfl

/- A run adds the effects of the body. -/
theorem run_eq
    (symbols : Symbols)
    (facts : MethodFacts)
    (statements : List Statement) :
    run symbols facts statements =
      (effects symbols facts.signature.owner statements).map
        fun es => es.foldl BodyResult.add { facts } := by
  unfold run effects ofBody
  cases ordered statements with
  | error e => rfl
  | ok placed =>
      change (placed.foldlM declare _ >>= _) =
        Except.map _ (placed.foldlM declare _ >>= _)
      cases placed.foldlM declare
          (start symbols facts.signature.owner) with
      | error e => rfl
      | ok frame =>
          exact foldlM_eq_mapM (P := fun _ => True)
            (fun r s _ => frame.step_eq r s)
            (fun _ _ _ => trivial) placed trivial

end Frame

------------------------------------------------------------
-- Marks
------------------------------------------------------------

/-
  What the facts of a method can say: that it calls a method,
  throws a class, has a handler around the calls of a method,
  or catches a class there.
-/
inductive Mark where
  | calls (callee : Signature)
  | throws (exc : String)
  | guards (callee : Signature)
  | catches (callee : Signature) (exc : String)

/- The facts of a method say something. -/
def MethodFacts.Has
    (f : MethodFacts) : Mark → Prop
  | .calls c => c ∈ f.calls
  | .throws e => e ∈ f.thrown
  | .guards c => c ∈ f.handlers.keys
  | .catches c e => e ∈ (f.handlers.get? c).getD []

/- An effect makes the facts of a method say something. -/
def Effect.Makes : Effect → Mark → Prop
  | call t _, .calls c => t.signature = c
  | call t caught, .guards c => t.signature = c ∧ caught ≠ []
  | call t caught, .catches c e => t.signature = c ∧ e ∈ caught
  | thrown c, .throws e => c = e
  | _, _ => False

namespace MethodFacts

/- Facts say the same if they have the same marks. -/
theorem same_iff
    (f g : MethodFacts) :
    f.Same g ↔
      f.signature = g.signature ∧
        ∀ mark, f.Has mark ↔ g.Has mark := by
  constructor
  · intro hSame
    refine ⟨hSame.signature, ?_⟩
    intro mark
    cases mark with
    | calls c => exact hSame.calls c
    | throws e => exact hSame.thrown e
    | guards c =>
        have hNone := eq_none_iff_of_rel (hSame.handlers c)
        rw [Table.get?_eq_none_iff, Table.get?_eq_none_iff]
          at hNone
        exact not_iff_not.mp hNone
    | catches c e => exact sameMembers_getD (hSame.handlers c) e
  · rintro ⟨hSignature, hMarks⟩
    refine
      { signature := hSignature
        calls := fun c => hMarks (.calls c)
        thrown := fun e => hMarks (.throws e)
        handlers := ?_ }
    intro c
    have hKeys := hMarks (.guards c)
    simp only [Has, Table.mem_keys_iff] at hKeys
    apply rel_of_exists
    · intro caught hCaught
      rcases hKeys.mp ⟨caught, hCaught⟩ with ⟨caught', hOther⟩
      refine ⟨caught', hOther, ?_⟩
      intro e
      have hMembers := hMarks (.catches c e)
      simpa only [Has, hCaught, hOther, Option.getD_some]
        using hMembers
    · intro caught hCaught
      exact hKeys.mpr ⟨caught, hCaught⟩

theorem mem_union
    (names more : List String)
    (n : String) :
    n ∈ union names more ↔ n ∈ names ∨ n ∈ more := by
  rw [union, foldl_iff (M := (n ∈ ·)) (E := (n = ·))]
  · simp
  · intro acc m
    rw [List.mem_insert_iff, or_comm]

/- A call makes its own marks and keeps all others. -/
theorem has_addCall_iff
    (f : MethodFacts)
    (t : Target)
    (caught : List String)
    (mark : Mark) :
    (f.addCall t.signature caught).Has mark ↔
      f.Has mark ∨ (Effect.call t caught).Makes mark := by
  cases mark with
  | calls c =>
      simp only [Has, addCall, Effect.Makes, List.mem_insert_iff]
      rw [or_comm, eq_comm]
  | throws e => simp [Has, addCall, Effect.Makes]
  | guards c =>
      simp only [Has, addCall, Effect.Makes, List.isEmpty_iff]
      by_cases hNone : caught = []
      · simp [hNone]
      · simp only [hNone, if_false, Table.mem_keys_iff,
          Table.get?_insert]
        by_cases hCallee : c = t.signature
        · simp [hCallee, hNone]
        · have hOther : ¬t.signature = c := fun h => hCallee h.symm
          simp [hCallee, hOther]
  | catches c e =>
      simp only [Has, addCall, Effect.Makes, List.isEmpty_iff]
      by_cases hNone : caught = []
      · simp [hNone]
      · simp only [hNone, if_false, Table.get?_insert]
        by_cases hCallee : c = t.signature
        · simp [hCallee, mem_union]
        · have hOther : ¬t.signature = c := fun h => hCallee h.symm
          simp [hCallee, hOther]

theorem has_addThrow_iff
    (f : MethodFacts)
    (exc : String)
    (mark : Mark) :
    (f.addThrow exc).Has mark ↔
      f.Has mark ∨ (Effect.thrown exc).Makes mark := by
  cases mark with
  | throws e =>
      simp only [Has, addThrow, Effect.Makes, List.mem_insert_iff]
      rw [or_comm, eq_comm]
  | _ => simp [Has, addThrow, Effect.Makes]

/- Of a bare method nothing is said. -/
theorem not_has_bare
    (s : Signature)
    (mark : Mark) :
    ¬({ signature := s } : MethodFacts).Has mark := by
  cases mark <;> simp [Has]

end MethodFacts

------------------------------------------------------------
-- Results
------------------------------------------------------------

namespace BodyResult

theorem has_add_iff
    (r : BodyResult)
    (e : Effect)
    (mark : Mark) :
    (r.add e).facts.Has mark ↔
      r.facts.Has mark ∨ e.Makes mark := by
  cases e with
  | thrown c => exact r.facts.has_addThrow_iff c mark
  | call t caught =>
      have hFacts : (r.noteExternal t).facts = r.facts := by
        cases t <;> rfl
      rw [add, addCall, hFacts]
      exact r.facts.has_addCall_iff t caught mark
  | _ => cases mark <;> simp [add, Effect.Makes]

/- After some effects there are the marks that they make. -/
theorem has_foldl_add_iff
    (effects : List Effect)
    (r : BodyResult)
    (mark : Mark) :
    (effects.foldl add r).facts.Has mark ↔
      r.facts.Has mark ∨ ∃ e ∈ effects, e.Makes mark :=
  foldl_iff (M := fun r => r.facts.Has mark)
    (fun r e => r.has_add_iff e mark) effects r

theorem add_spec
    (r : BodyResult)
    (e : Effect) :
    (r.add e).facts.signature = r.facts.signature ∧
      (r.add e).externals = r.externals ++ e.external?.toList ∧
      (r.add e).unresolved =
        r.unresolved + [e].countP Effect.isUnknownCall := by
  cases e with
  | call t caught =>
      cases t <;> simp [add, addCall, noteExternal,
        MethodFacts.addCall, Effect.external?,
        Effect.isUnknownCall]
  | _ =>
      simp [add, MethodFacts.addThrow, Effect.external?,
        Effect.isUnknownCall]

/- What else is known after some effects. -/
theorem foldl_add_spec
    (effects : List Effect)
    (r : BodyResult) :
    (effects.foldl add r).facts.signature = r.facts.signature ∧
      (effects.foldl add r).externals =
        r.externals ++ effects.filterMap Effect.external? ∧
      (effects.foldl add r).unresolved =
        r.unresolved + effects.countP Effect.isUnknownCall := by
  induction effects generalizing r with
  | nil => simp
  | cons e rest ih =>
      rcases r.add_spec e with ⟨hSignature, hExternals, hCount⟩
      rcases ih (r.add e) with ⟨hSignature', hExternals', hCount'⟩
      rw [List.foldl_cons]
      refine ⟨hSignature'.trans hSignature, ?_, ?_⟩
      · rw [hExternals', hExternals, List.append_assoc]
        cases hExternal : e.external? <;> simp [hExternal]
      · rw [hCount', hCount, Nat.add_assoc, ← List.countP_append]
        rfl

end BodyResult

------------------------------------------------------------
-- Variables
------------------------------------------------------------

/- Whether a statement declares a variable with a name. -/
def Statement.declaresName
    (name : String)
    (s : Statement) : Bool :=
  decide (s.kind = some .declare ∧
    s.parts.bind Parts.name = some name)

/- The type of a declared variable in a method of a type. -/
def Symbols.declaredType?
    (symbols : Symbols)
    (owner : String)
    (s : Statement) : Option String :=
  (s.parts.bind Parts.type).bind fun type =>
    symbols.names.resolve? (type.getD "") (some owner)

namespace Frame

variable {files : List FileSummary} {symbols : Symbols}

/- A declaration replaces the type of its variable, if known. -/
theorem declare_spec
    {f after : Frame}
    {s : Statement}
    (hDeclare : f.declare s = .ok after) :
    after.symbols = f.symbols ∧
      after.owner = f.owner ∧
      ∀ name, after.locals.get? name =
        (if s.declaresName name then
          f.symbols.declaredType? f.owner s
        else
          none).or (f.locals.get? name) := by
  simp only [declare, bind_eq_ok_iff, need_eq_ok_iff]
    at hDeclare
  rcases hDeclare with ⟨kind, hKind, hDeclare⟩
  split at hDeclare
  · next hDeclares =>
      subst hDeclares
      simp only [bind_eq_ok_iff, need_eq_ok_iff] at hDeclare
      rcases hDeclare with
        ⟨parts, hParts, type, hType, hDeclare⟩
      have hDeclared :
          f.symbols.declaredType? f.owner s =
            f.type? (type.getD "") := by
        rw [Symbols.declaredType?, hParts, Option.bind_some,
          hType]
        rfl
      rw [hDeclared]
      split at hDeclare
      · next hNone =>
          cases hDeclare
          simp [hNone]
      · next found hFound =>
          simp only [bind_eq_ok_iff, need_eq_ok_iff] at hDeclare
          rcases hDeclare with ⟨written, hName, hAfter⟩
          cases hAfter
          refine ⟨rfl, rfl, ?_⟩
          intro name
          rw [Table.get?_insert, hFound]
          by_cases hSame : name = written
          · simp [Statement.declaresName, hKind, hParts, hName,
              hSame]
          · have hOther : ¬written = name :=
              fun h => hSame h.symm
            simp [Statement.declaresName, hParts, hName, hSame,
              hOther]
  · next hOther =>
      cases hDeclare
      simp [Statement.declaresName, hKind, hOther]

theorem declare_symbols
    {f after : Frame}
    {s : Statement}
    (hDeclare : f.declare s = .ok after) :
    after.symbols = f.symbols :=
  (declare_spec hDeclare).1

theorem ofBody_symbols
    {owner : String}
    {statements : List Statement}
    {frame : Frame}
    (hFrame : ofBody symbols owner statements = .ok frame) :
    frame.symbols = symbols := by
  rcases bind_eq_ok_iff.mp hFrame with ⟨placed, -, hRun⟩
  apply foldlM_preserves
    (P := fun f : Frame => f.symbols = symbols) rfl _ hRun
  intro before s _ after hBefore hDeclare
  rw [declare_symbols hDeclare, hBefore]

------------------------------------------------------------
-- Targets
------------------------------------------------------------

theorem finds_of_constructorOf?
    (hSymbols : Symbols.ofFiles files = .ok symbols)
    {frame : Frame}
    (hFrame : frame.symbols = symbols)
    {type : Option String}
    {arity : Int}
    {t : Target}
    (hTarget :
      frame.constructorOf? type arity = .ok (some t)) :
    symbols.Finds t := by
  unfold constructorOf? at hTarget
  split at hTarget
  · rw [hFrame] at hTarget
    exact Symbols.finds_of_constructor? hSymbols hTarget
  · cases hTarget

/- Whatever a statement calls is a method that can be found. -/
theorem finds_of_target?
    (hSymbols : Symbols.ofFiles files = .ok symbols)
    {frame : Frame}
    (hFrame : frame.symbols = symbols)
    {kind : StatementKind}
    {parts : Parts}
    {t : Target}
    (hTarget : frame.target? kind parts = .ok (some t)) :
    symbols.Finds t := by
  unfold target? at hTarget
  rcases bind_eq_ok_iff.mp hTarget with ⟨arity, -, hTarget⟩
  split at hTarget
  · rcases bind_eq_ok_iff.mp hTarget with ⟨type, -, hTarget⟩
    exact finds_of_constructorOf? hSymbols hFrame hTarget
  · rcases bind_eq_ok_iff.mp hTarget with ⟨type, -, hTarget⟩
    exact finds_of_constructorOf? hSymbols hFrame hTarget
  · rcases bind_eq_ok_iff.mp hTarget with ⟨recv, -, hTarget⟩
    split at hTarget
    · cases hTarget
    · rcases bind_eq_ok_iff.mp hTarget with ⟨name, -, hTarget⟩
      rw [hFrame] at hTarget
      have hMethod := Except.ok.inj hTarget
      exact (Symbols.finds_of_method? hSymbols hMethod).1

theorem finds_of_effect
    (hSymbols : Symbols.ofFiles files = .ok symbols)
    {frame : Frame}
    (hFrame : frame.symbols = symbols)
    {s : Statement}
    {t : Target}
    {caught : List String}
    (hEffect : frame.effect s = .ok (.call t caught)) :
    symbols.Finds t := by
  unfold effect at hEffect
  rcases bind_eq_ok_iff.mp hEffect with ⟨kind, -, hEffect⟩
  rcases bind_eq_ok_iff.mp hEffect with ⟨parts, -, hEffect⟩
  split at hEffect
  · cases hEffect
  · rcases bind_eq_ok_iff.mp hEffect with ⟨thrown, -, hEffect⟩
    cases thrown <;> cases hEffect
  · rcases bind_eq_ok_iff.mp hEffect with
      ⟨target, hTarget, hEffect⟩
    cases target with
    | none => cases hEffect
    | some target =>
        rcases bind_eq_ok_iff.mp hEffect with ⟨_, -, hCall⟩
        cases hCall
        exact finds_of_target? hSymbols hFrame hTarget

/- Whatever a body calls is a method that can be found. -/
theorem finds_of_mem_effects
    (hSymbols : Symbols.ofFiles files = .ok symbols)
    {owner : String}
    {statements : List Statement}
    {es : List Effect}
    (hEffects : effects symbols owner statements = .ok es)
    {t : Target}
    {caught : List String}
    (hMem : Effect.call t caught ∈ es) :
    symbols.Finds t := by
  rcases bind_eq_ok_iff.mp hEffects with
    ⟨frame, hFrame, hEffects⟩
  rcases bind_eq_ok_iff.mp hEffects with ⟨placed, -, hEffects⟩
  rcases exists_of_mem_right (forall₂_of_mapM_eq_ok hEffects)
      hMem with
    ⟨s, -, hEffect⟩
  exact finds_of_effect hSymbols (ofBody_symbols hFrame) hEffect

end Frame

end Uncaught
