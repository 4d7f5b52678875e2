import Uncaught.Proofs.Resolve.Resolution

/-
  Symbols that answer every lookup the same. The bodies of a
  file are resolved to the same effects with either of them,
  whatever the order of the entries in their tables.

  Key definitions include:
    * `Symbols.Same`
    * `Frame.relinked`

  Main declarations:
    * `Names.Same.declarations_eq`
    * `Symbols.Same.method?_eq`
    * `Symbols.Same.constructor?_eq`
    * `Frame.effect_relinked`
    * `Symbols.Same.effects_eq`
    * `Symbols.Same.bodiesOf_eq`
-/

namespace Uncaught

open Symbols (Target)

------------------------------------------------------------
-- Names
------------------------------------------------------------

namespace Names.Same

variable {n other : Names} (hSame : n.Same other)

include hSame

theorem headNames_eq :
    Links.headNames n = Links.headNames other := by
  funext name written
  rw [Links.headNames, Links.headNames, hSame.resolve?_eq]

theorem parentOf_eq :
    Links.parentOf n = Links.parentOf other := by
  funext name
  rw [Links.parentOf, Links.parentOf, hSame name,
    hSame.headNames_eq]

theorem interfacesOf_eq :
    Links.interfacesOf n = Links.interfacesOf other := by
  funext name
  rw [Links.interfacesOf, Links.interfacesOf, hSame name,
    hSame.headNames_eq]

theorem fieldEntry_eq :
    Links.fieldEntry n = Links.fieldEntry other := by
  funext owner f
  rw [Links.fieldEntry, Links.fieldEntry, hSame.resolve?_eq]

/- A file declares the same methods. -/
theorem declarations_eq :
    Symbols.declarations n = Symbols.declarations other := by
  have hOne :
      Symbols.declaration? n = Symbols.declaration? other := by
    funext package m
    rw [Symbols.declaration?, Symbols.declaration?,
      hSame.resolveException_eq]
  funext f
  rw [Symbols.declarations, Symbols.declarations, hOne]

end Names.Same

------------------------------------------------------------
-- Symbols
------------------------------------------------------------

/- Symbols that answer every lookup the same. -/
structure Symbols.Same
    (s other : Symbols) : Prop where
  names : s.names.Same other.names
  parents :
    ∀ name, s.links.parents.get? name =
      other.links.parents.get? name
  interfaces :
    ∀ name, (s.links.interfaces.get? name).getD [] =
      (other.links.interfaces.get? name).getD []
  fields :
    ∀ owner, (s.links.fields.get? owner).getD .empty =
      (other.links.fields.get? owner).getD .empty
  methods :
    ∀ owner, s.methodsOf owner = other.methodsOf owner
  signatures :
    ∀ text, s.signatures.get? text = other.signatures.get? text

namespace Symbols.Same

variable {s other : Symbols} (hSame : s.Same other)

include hSame

theorem closure_eq :
    s.links.closure = other.links.closure := by
  apply Links.closure_eq_of_supertypes_eq
  funext name
  rw [Links.supertypes, Links.supertypes, hSame.parents,
    hSame.interfaces]

/- A call is matched the same. -/
theorem method?_eq :
    s.method? = other.method? := by
  funext owner name arity
  have hOwn : s.ownMethod? = other.ownMethod? := by
    funext name arity owner
    rw [ownMethod?, ownMethod?, hSame.methods]
  unfold method?
  rw [hSame.closure_eq, hSame.names.declares_eq, hOwn]

/- A creation is matched the same. -/
theorem constructor?_eq :
    s.constructor? = other.constructor? := by
  funext owner arity
  rw [constructor?, constructor?, hSame.names.declares_eq,
    hSame.methods]

end Symbols.Same

------------------------------------------------------------
-- Frames
------------------------------------------------------------

namespace Frame

/- A frame with other symbols. -/
def relinked
    (f : Frame)
    (other : Symbols) : Frame :=
  { f with symbols := other }

variable {f : Frame} {other : Symbols}
variable (hSame : f.symbols.Same other)

include hSame

theorem parent?_relinked :
    (f.relinked other).parent? = f.parent? :=
  (hSame.parents f.owner).symm

theorem fields_relinked :
    (f.relinked other).fields = f.fields :=
  (hSame.fields f.owner).symm

theorem type?_relinked :
    (f.relinked other).type? = f.type? := by
  funext name
  rw [type?, type?, hSame.names.resolve?_eq]
  rfl

theorem exceptionClass_relinked :
    (f.relinked other).exceptionClass = f.exceptionClass := by
  funext name
  rw [exceptionClass, exceptionClass,
    hSame.names.resolveException_eq]
  rfl

/- A receiver has the same type. -/
theorem receiver?_relinked :
    (f.relinked other).receiver? = f.receiver? := by
  funext recv
  have hLocals : (f.relinked other).locals = f.locals := rfl
  have hOwner : (f.relinked other).owner = f.owner := rfl
  unfold receiver? ownField? isObject
  rw [parent?_relinked hSame, fields_relinked hSame,
    type?_relinked hSame, hLocals, hOwner]

theorem constructorOf?_relinked :
    (f.relinked other).constructorOf? = f.constructorOf? := by
  funext type arity
  unfold constructorOf?
  rw [hSame.constructor?_eq]
  rfl

/- A statement calls the same. -/
theorem target?_relinked :
    (f.relinked other).target? = f.target? := by
  funext kind parts
  have hOwner : (f.relinked other).owner = f.owner := rfl
  have hSymbols : (f.relinked other).symbols = other := rfl
  unfold target?
  rw [constructorOf?_relinked hSame, type?_relinked hSame,
    parent?_relinked hSame, receiver?_relinked hSame, hOwner,
    hSymbols, hSame.method?_eq]

theorem thrown?_relinked :
    (f.relinked other).thrown? = f.thrown? := by
  funext parts
  have hLocals : (f.relinked other).locals = f.locals := rfl
  unfold thrown?
  rw [exceptionClass_relinked hSame, hLocals]

/- A statement does the same. -/
theorem effect_relinked :
    (f.relinked other).effect = f.effect := by
  funext s
  unfold effect
  rw [thrown?_relinked hSame, target?_relinked hSame,
    exceptionClass_relinked hSame]

/- A declaration declares the same. -/
theorem declare_relinked
    (s : Statement) :
    (f.relinked other).declare s =
      (f.declare s).map (·.relinked other) := by
  unfold declare
  rw [type?_relinked hSame]
  cases s.kind with
  | none => rfl
  | some kind =>
      simp only [need_some, bind, Except.bind]
      split
      · cases s.parts with
        | none => rfl
        | some parts =>
            cases hType : parts.type with
            | none => simp [hType, need, Except.map]
            | some type =>
                simp only [need_some, hType]
                cases f.type? (type.getD "") with
                | none => rfl
                | some found =>
                    cases hName : parts.name <;> rfl
      · rfl

end Frame

------------------------------------------------------------
-- Bodies
------------------------------------------------------------

namespace Symbols.Same

variable {s other : Symbols} (hSame : s.Same other)

include hSame

theorem start_eq
    (owner : String) :
    Frame.start other owner =
      (Frame.start s owner).relinked other := by
  unfold Frame.start Frame.relinked
  rw [hSame.parents]

/- A body has the same variables. -/
theorem ofBody_eq
    (owner : String)
    (statements : List Statement) :
    Frame.ofBody other owner statements =
      (Frame.ofBody s owner statements).map
        (·.relinked other) := by
  unfold Frame.ofBody
  cases Frame.ordered statements with
  | error e => rfl
  | ok placed =>
      change placed.foldlM Frame.declare _ =
        (placed.foldlM Frame.declare _).map _
      have hStart : (Frame.start s owner).symbols = s := rfl
      rw [hSame.start_eq]
      refine foldlM_map_eq (V := fun f : Frame => f.relinked other)
        (P := fun f : Frame => f.symbols = s)
        ?_ ?_ placed hStart
      · rintro f statement rfl
        exact Frame.declare_relinked hSame statement
      · rintro f statement after rfl hDeclare
        exact Frame.declare_symbols hDeclare

/- A body does the same. -/
theorem effects_eq
    (owner : String)
    (statements : List Statement) :
    Frame.effects other owner statements =
      Frame.effects s owner statements := by
  unfold Frame.effects
  rw [hSame.ofBody_eq]
  cases hFrame : Frame.ofBody s owner statements with
  | error e => rfl
  | ok frame =>
      have hFrameSame : frame.symbols.Same other := by
        rw [Frame.ofBody_symbols hFrame]
        exact hSame
      change (_ >>= List.mapM (frame.relinked other).effect) = _
      rw [Frame.effect_relinked hFrameSame]
      rfl

/- The bodies of a file do the same. -/
theorem bodiesOf_eq :
    Resolution.bodiesOf other = Resolution.bodiesOf s := by
  have hBody :
      Resolution.bodyOf other = Resolution.bodyOf s := by
    funext body
    unfold Resolution.bodyOf
    simp only [hSame.signatures, hSame.effects_eq]
  funext f
  unfold Resolution.bodiesOf
  rw [hBody]

end Symbols.Same

end Uncaught
