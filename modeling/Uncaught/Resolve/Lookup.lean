import Uncaught.Resolve.Links

/-
  This file defines the methods of a project and how a call is
  matched to one of them, by owner, name and number of
  arguments.

  Key definitions include:
    * `DeclaredMethod`
    * `Symbols`
    * `Symbols.ofFiles`
    * `Target`
    * `Symbols.method?`
    * `Symbols.constructor?`
-/

namespace Uncaught

------------------------------------------------------------
-- Symbols
------------------------------------------------------------

/-
  A method of the project, and whether it is a constructor,
  if that is known.
-/
structure DeclaredMethod where
  signature : Signature
  isConstructor : Option Bool

/-
  The types and methods of a project: the names, the links
  between types, the methods of each type in the order in which
  they are declared, and the signatures by their texts.
-/
structure Symbols where
  names : Names
  links : Links
  methods : Table String (List DeclaredMethod) := .empty
  signatures : Table String Signature := .empty

namespace Symbols

/- Add a method. -/
def addMethod
    (package : Option String)
    (s : Symbols)
    (m : MethodSummary) : Except MissingKey Symbols := do
  let owner ← need "owner_fqn" m.owner
  let throws := (← need "throws" m.throws).map
    fun t => s.names.resolveException t (some owner)
  let name ← need "name" m.name
  let params ← need "params" m.params
  let signature : Signature :=
    { owner, name, params, package, throws }
  let text ← need "sig" m.sig
  let known := (s.methods.get? owner).getD []
  return { s with
    signatures := s.signatures.insert text signature
    methods := s.methods.insert owner
      (known ++ [⟨signature, m.isConstructor⟩]) }

/- Add the methods of a file. -/
def addFile
    (s : Symbols)
    (f : FileSummary) : Except MissingKey Symbols := do
  (← need "methods" f.methods).foldlM (addMethod f.package) s

/- The types and methods of files. -/
def ofFiles
    (files : List FileSummary) : Except MissingKey Symbols := do
  let names := Names.ofFiles files
  let links ← Links.ofFiles names files
  files.foldlM addFile { names, links }

/- The methods of a type. -/
def methodsOf
    (s : Symbols)
    (owner : String) : List DeclaredMethod :=
  (s.methods.get? owner).getD []

------------------------------------------------------------
-- Targets
------------------------------------------------------------

/-
  What a call runs: a method of the project, or a method whose
  source is not in the project.
-/
inductive Target where
  | declared (signature : Signature)
  | external (signature : Signature)
  deriving DecidableEq, Repr

/- The signature of a target. -/
def Target.signature : Target → Signature
  | declared s => s
  | external s => s

/- Whether a signature takes a number of arguments. -/
def takes
    (arity : Int)
    (s : Signature) : Bool :=
  (s.params.length : Int) == arity

/- The first method of a type with a name and an arity. -/
def ownMethod?
    (s : Symbols)
    (name : String)
    (arity : Int)
    (owner : String) : Option Signature :=
  ((s.methodsOf owner).map (·.signature)).find? fun m =>
    m.name == name && takes arity m

/-
  The method that a call on a type runs. The methods that the
  project declares for the type and its supertypes come before
  those of the types that are not in the project.
-/
def method?
    (s : Symbols)
    (owner name : String)
    (arity : Int) : Option Target :=
  let types := s.links.closure owner
  let (known, unknown) := types.partition s.names.declares
  match known.findSome? (s.ownMethod? name arity) with
  | some m => some (.declared m)
  | none => unknown.head?.map fun o =>
      .external (Platform.externalSignature o name arity)

/- The first constructor with an arity. -/
def findConstructor
    (arity : Int) :
    List DeclaredMethod → Except MissingKey (Option Signature)
  | [] => .ok none
  | m :: ms => do
      let isConstructor ← need "is_constructor" m.isConstructor
      if isConstructor && takes arity m.signature then
        return some m.signature
      else
        findConstructor arity ms

/-
  The constructor that a creation runs; none for a type of the
  project that does not declare it.
-/
def constructor?
    (s : Symbols)
    (owner : String)
    (arity : Int) : Except MissingKey (Option Target) := do
  if s.names.declares owner then
    return (← findConstructor arity (s.methodsOf owner)).map
      .declared
  else
    return some (.external (Platform.externalSignature owner
      Signature.constructorName arity))

end Symbols

end Uncaught
