import Uncaught.Proofs.Resolve.Links
import Uncaught.Resolve.Lookup

/-
  What the symbols of a project are: the methods of a type are
  its declarations in the order of the files, and a call is
  matched to one of them, or to a method of a type outside of
  the project.

  Key definitions include:
    * `Symbols.declaration?`
    * `Symbols.declarations`
    * `Symbols.Declares`
    * `Symbols.Finds`
    * `Symbols.knownTypes`

  Main declarations:
    * `Symbols.methodsOf_of_ofFiles`
    * `Symbols.signatures_of_ofFiles`
    * `Symbols.mem_declared_iff`
    * `Symbols.method?_eq`
    * `Symbols.finds_of_method?`
    * `Symbols.finds_of_constructor?`
-/

namespace Uncaught

namespace Symbols

variable {files : List FileSummary} {symbols : Symbols}

------------------------------------------------------------
-- Declarations
------------------------------------------------------------

/- What a method declares: its text and what it stands for. -/
def declaration?
    (n : Names)
    (package : Option String)
    (m : MethodSummary) : Option (String × DeclaredMethod) := do
  let owner ← m.owner
  let throws ← m.throws
  let name ← m.name
  let params ← m.params
  let text ← m.sig
  return (text,
    { signature :=
        { owner
          name
          params
          package
          throws := throws.map fun t =>
            n.resolveException t (some owner) }
      isConstructor := m.isConstructor })

/- What the methods of a file declare. -/
def declarations
    (n : Names)
    (f : FileSummary) : List (String × DeclaredMethod) :=
  (f.methods.getD []).filterMap (declaration? n f.package)

/- The symbols with one more declaration. -/
def declare
    (s : Symbols)
    (e : String × DeclaredMethod) : Symbols :=
  { s with
    signatures := s.signatures.insert e.1 e.2.signature
    methods := s.methods.insert e.2.signature.owner
      (s.methodsOf e.2.signature.owner ++ [e.2]) }

/- What is declared is what the summary of the method has. -/
theorem of_declaration?
    {n : Names}
    {package : Option String}
    {m : MethodSummary}
    {e : String × DeclaredMethod}
    (hEntry : declaration? n package m = some e) :
    m.sig = some e.1 ∧
      m.owner = some e.2.signature.owner ∧
      m.name = some e.2.signature.name ∧
      m.params = some e.2.signature.params ∧
      e.2.signature.package = package ∧
      e.2.isConstructor = m.isConstructor := by
  simp only [declaration?, Option.bind_eq_bind,
    Option.bind_eq_some_iff] at hEntry
  rcases hEntry with ⟨owner, hOwner, throws, -, name, hName,
    params, hParams, text, hText, hEntry⟩
  cases hEntry
  exact ⟨hText, hOwner, hName, hParams, rfl, rfl⟩

/- A method is added if it declares something. -/
theorem addMethod_eq_ok_iff
    {package : Option String}
    {s after : Symbols}
    {m : MethodSummary} :
    addMethod package s m = .ok after ↔
      ∃ e, declaration? s.names package m = some e ∧
        after = s.declare e := by
  simp only [addMethod, declaration?, bind_eq_ok_iff,
    need_eq_ok_iff, Option.bind_eq_bind, Option.bind_eq_some_iff]
  constructor
  · rintro ⟨owner, hOwner, throws, hThrows, name, hName, params,
      hParams, text, hText, hAfter⟩
    cases hAfter
    exact ⟨_, ⟨owner, hOwner, throws, hThrows, name, hName,
      params, hParams, text, hText, rfl⟩, rfl⟩
  · rintro ⟨e, ⟨owner, hOwner, throws, hThrows, name, hName,
      params, hParams, text, hText, hEntry⟩, rfl⟩
    cases hEntry
    exact ⟨owner, hOwner, throws, hThrows, name, hName, params,
      hParams, text, hText, rfl⟩

/- Declarations leave the names and the links alone. -/
theorem types_foldl_declare
    (entries : List (String × DeclaredMethod))
    (s : Symbols) :
    (entries.foldl declare s).names = s.names ∧
      (entries.foldl declare s).links = s.links := by
  induction entries generalizing s with
  | nil => exact ⟨rfl, rfl⟩
  | cons e rest ih => exact ih (s.declare e)

/- A file adds its declarations, in order. -/
theorem addFile_spec
    {s after : Symbols}
    {f : FileSummary}
    (hAdd : addFile s f = .ok after) :
    after = (declarations s.names f).foldl declare s := by
  simp only [addFile, bind_eq_ok_iff, need_eq_ok_iff] at hAdd
  rcases hAdd with ⟨methods, hMethods, hRun⟩
  have hFold := foldlM_eq_foldl_of
    (P := fun b : Symbols => b.names = s.names)
    (V := id)
    (g := fun b m =>
      (declaration? s.names f.package m).elim b b.declare)
    rfl ?_ hRun
  · rw [id_eq, id_eq] at hFold
    rw [hFold, declarations, hMethods, Option.getD_some,
      List.foldl_filterMap]
    congr 1
    funext b m
    cases declaration? s.names f.package m <;> rfl
  · intro b m _ b' hNames hStep
    rcases addMethod_eq_ok_iff.mp hStep with ⟨e, hEntry, rfl⟩
    rw [hNames] at hEntry
    refine ⟨hNames, ?_⟩
    rw [hEntry]
    rfl

/- The symbols of files are the declarations of all of them. -/
theorem ofFiles_spec
    (hSymbols : ofFiles files = .ok symbols) :
    ∃ links,
      Links.ofFiles (.ofFiles files) files = .ok links ∧
      symbols =
        (files.flatMap (declarations (.ofFiles files))).foldl
          declare { names := .ofFiles files, links } := by
  rcases bind_eq_ok_iff.mp hSymbols with ⟨links, hLinks, hRun⟩
  refine ⟨links, hLinks, ?_⟩
  rw [List.foldl_flatMap]
  refine foldlM_eq_foldl_of
    (P := fun s : Symbols => s.names = .ofFiles files)
    (V := id) rfl ?_ hRun
  intro s f _ after hNames hAdd
  have hAfter := addFile_spec hAdd
  rw [hNames] at hAfter
  refine ⟨?_, hAfter⟩
  rw [hAfter, (types_foldl_declare _ _).1, hNames]

------------------------------------------------------------
-- Symbols
------------------------------------------------------------

theorem methodsOf_foldl_declare
    (entries : List (String × DeclaredMethod))
    (s : Symbols)
    (owner : String) :
    (entries.foldl declare s).methodsOf owner =
      s.methodsOf owner ++ (entries.filter fun e =>
        decide (e.2.signature.owner = owner)).map Prod.snd := by
  induction entries generalizing s with
  | nil => simp
  | cons e rest ih =>
      rw [List.foldl_cons, ih, methodsOf, declare,
        Table.get?_insert]
      by_cases hOwner : e.2.signature.owner = owner
      · simp [hOwner]
      · have hOther : ¬owner = e.2.signature.owner :=
          fun hSame => hOwner hSame.symm
        simp [hOwner, hOther, methodsOf]

theorem signatures_foldl_declare
    (entries : List (String × DeclaredMethod))
    (s : Symbols) :
    (entries.foldl declare s).signatures =
      (entries.map fun e => (e.1, e.2.signature)).foldl
        (fun t e => t.insert e.1 e.2) s.signatures := by
  induction entries generalizing s with
  | nil => rfl
  | cons e rest ih =>
      rw [List.foldl_cons, ih]
      rfl

theorem names_of_ofFiles
    (hSymbols : ofFiles files = .ok symbols) :
    symbols.names = .ofFiles files := by
  rcases ofFiles_spec hSymbols with ⟨links, -, rfl⟩
  exact (types_foldl_declare _ _).1

theorem links_of_ofFiles
    (hSymbols : ofFiles files = .ok symbols) :
    Links.ofFiles symbols.names files = .ok symbols.links := by
  rw [names_of_ofFiles hSymbols]
  rcases ofFiles_spec hSymbols with ⟨links, hLinks, rfl⟩
  rw [(types_foldl_declare _ _).2]
  exact hLinks

/- The methods of a type are those declared for it, in order. -/
theorem methodsOf_of_ofFiles
    (hSymbols : ofFiles files = .ok symbols)
    (owner : String) :
    symbols.methodsOf owner =
      ((files.flatMap (declarations symbols.names)).filter
        fun e => decide (e.2.signature.owner = owner)).map
          Prod.snd := by
  rw [names_of_ofFiles hSymbols]
  rcases ofFiles_spec hSymbols with ⟨links, -, rfl⟩
  rw [methodsOf_foldl_declare]
  rfl

/- A text stands for the last method that is declared with it. -/
theorem signatures_of_ofFiles
    (hSymbols : ofFiles files = .ok symbols) :
    symbols.signatures =
      .ofList ((files.flatMap (declarations symbols.names)).map
        fun e => (e.1, e.2.signature)) := by
  rw [names_of_ofFiles hSymbols]
  rcases ofFiles_spec hSymbols with ⟨links, -, rfl⟩
  exact signatures_foldl_declare _ _

------------------------------------------------------------
-- Declared Signatures
------------------------------------------------------------

/- A type of the project declares a method with a signature. -/
def Declares
    (s : Symbols)
    (sig : Signature) : Prop :=
  ∃ m ∈ s.methodsOf sig.owner, m.signature = sig

theorem mem_methodsOf_iff
    (hSymbols : ofFiles files = .ok symbols)
    (owner : String)
    (m : DeclaredMethod) :
    m ∈ symbols.methodsOf owner ↔
      m.signature.owner = owner ∧
        ∃ f ∈ files, ∃ text,
          (text, m) ∈ declarations symbols.names f := by
  rw [methodsOf_of_ofFiles hSymbols]
  simp only [List.mem_map, List.mem_filter, List.mem_flatMap,
    decide_eq_true_eq, Prod.exists, exists_eq_right]
  constructor
  · rintro ⟨text, ⟨f, hFile, hMem⟩, hOwner⟩
    exact ⟨hOwner, f, hFile, text, hMem⟩
  · rintro ⟨hOwner, f, hFile, text, hMem⟩
    exact ⟨text, ⟨f, hFile, hMem⟩, hOwner⟩

theorem declares_iff
    (hSymbols : ofFiles files = .ok symbols)
    (sig : Signature) :
    symbols.Declares sig ↔
      ∃ f ∈ files, ∃ e ∈ declarations symbols.names f,
        e.2.signature = sig := by
  simp only [Declares, mem_methodsOf_iff hSymbols]
  constructor
  · rintro ⟨m, ⟨-, f, hFile, text, hMem⟩, hSig⟩
    exact ⟨f, hFile, (text, m), hMem, hSig⟩
  · rintro ⟨f, hFile, e, hMem, rfl⟩
    exact ⟨e.2, ⟨rfl, f, hFile, e.1, hMem⟩, rfl⟩

/- The methods of a type are declared with this type as owner. -/
theorem declares_of_mem_methodsOf
    (hSymbols : ofFiles files = .ok symbols)
    {o : String}
    {m : DeclaredMethod}
    (hMem : m ∈ symbols.methodsOf o) :
    m.signature.owner = o ∧ symbols.Declares m.signature := by
  have hOwner := ((mem_methodsOf_iff hSymbols o m).mp hMem).1
  refine ⟨hOwner, m, ?_, rfl⟩
  rwa [hOwner]

/- The methods of all types are the declared ones. -/
theorem mem_declared_iff
    (hSymbols : ofFiles files = .ok symbols)
    (sig : Signature) :
    sig ∈ symbols.methods.values.flatten.map (·.signature) ↔
      symbols.Declares sig := by
  simp only [List.mem_map, List.mem_flatten,
    Table.mem_values_iff]
  constructor
  · rintro ⟨m, ⟨ms, ⟨owner, hFound⟩, hMem⟩, rfl⟩
    refine (declares_of_mem_methodsOf (o := owner) hSymbols
      ?_).2
    rwa [methodsOf, hFound]
  · rintro ⟨m, hMem, hSig⟩
    cases hFound : symbols.methods.get? sig.owner with
    | none => simp [methodsOf, hFound] at hMem
    | some ms =>
        rw [methodsOf, hFound] at hMem
        exact ⟨m, ⟨ms, ⟨sig.owner, hFound⟩, hMem⟩, hSig⟩

theorem declares_of_signatures
    (hSymbols : ofFiles files = .ok symbols)
    {text : String}
    {sig : Signature}
    (hFound : symbols.signatures.get? text = some sig) :
    symbols.Declares sig := by
  rw [signatures_of_ofFiles hSymbols] at hFound
  rcases List.mem_map.mp (Table.mem_of_get?_ofList hFound) with
    ⟨e, hMem, hEntry⟩
  cases hEntry
  rcases List.mem_flatMap.mp hMem with ⟨f, hFile, hDeclared⟩
  exact (declares_iff hSymbols _).mpr
    ⟨f, hFile, e, hDeclared, rfl⟩

------------------------------------------------------------
-- Targets
------------------------------------------------------------

variable {owner name type : String} {arity : Int}
variable {sig : Signature}

/- A method outside of the project has the package of its type. -/
theorem externalSignature_spec
    (owner name : String)
    (arity : Int) :
    (Platform.externalSignature owner name arity).owner =
        owner ∧
      (Platform.externalSignature owner name arity).package =
        Platform.packageOf owner := by
  simp only [Platform.externalSignature]
  split <;> exact ⟨rfl, rfl⟩

/-
  What a call can be matched to: a method that the project
  declares, or one of a type outside, in the package of its
  type.
-/
def Finds
    (s : Symbols) : Target → Prop
  | .declared sig => s.Declares sig
  | .external sig =>
      s.names.declares sig.owner = false ∧
        sig.package = Platform.packageOf sig.owner

theorem finds_external
    (hUnknown : symbols.names.declares owner = false)
    (name : String)
    (arity : Int) :
    symbols.Finds
      (.external (Platform.externalSignature owner name arity)) := by
  rcases externalSignature_spec owner name arity with
    ⟨hOwner, hPackage⟩
  rw [Finds, hOwner, hPackage]
  exact ⟨hUnknown, rfl⟩

/- The types of the project that a type stands under. -/
def knownTypes
    (s : Symbols)
    (owner : String) : List String :=
  (s.links.closure owner).filter s.names.declares

theorem mem_knownTypes_iff :
    type ∈ symbols.knownTypes owner ↔
      type ∈ symbols.links.closure owner ∧
        symbols.names.declares type = true :=
  List.mem_filter

/- How a call on a type is matched, in order. -/
theorem method?_eq
    (s : Symbols)
    (owner name : String)
    (arity : Int) :
    s.method? owner name arity =
      (((s.knownTypes owner).findSome?
        (s.ownMethod? name arity)).map Target.declared).or
      (((s.links.closure owner).find?
        (fun t => !s.names.declares t)).map fun t =>
          .external (Platform.externalSignature t name
            arity)) := by
  simp only [method?, List.partition_eq_filter_filter,
    knownTypes]
  rw [← List.head?_filter]
  cases ((s.links.closure owner).filter
    s.names.declares).findSome? (s.ownMethod? name arity) <;> rfl

/- A call runs a method of a type that the receiver stands under. -/
theorem finds_of_method?
    (hSymbols : ofFiles files = .ok symbols)
    {t : Target}
    (hTarget : symbols.method? owner name arity = some t) :
    symbols.Finds t ∧
      t.signature.owner ∈ symbols.links.closure owner := by
  rw [method?_eq, Option.or_eq_some_iff] at hTarget
  rcases hTarget with hDeclared | ⟨-, hExternal⟩
  · rcases Option.map_eq_some_iff.mp hDeclared with
      ⟨m, hFound, rfl⟩
    rcases List.exists_of_findSome?_eq_some hFound with
      ⟨o, hType, hOwn⟩
    rcases List.mem_map.mp (List.mem_of_find?_eq_some hOwn) with
      ⟨m, hMem, rfl⟩
    rcases declares_of_mem_methodsOf hSymbols hMem with
      ⟨hOwner, hDeclares⟩
    rw [Target.signature, hOwner]
    exact ⟨hDeclares, (mem_knownTypes_iff.mp hType).1⟩
  · rcases Option.map_eq_some_iff.mp hExternal with
      ⟨o, hFirst, rfl⟩
    have hUnknown := List.find?_some hFirst
    rw [Target.signature,
      (externalSignature_spec o name arity).1]
    exact ⟨finds_external (by simpa using hUnknown) name arity,
      List.mem_of_find?_eq_some hFirst⟩

/- The methods of a type come before those it stands under. -/
theorem method?_of_ownMethod?
    (hDeclares : symbols.names.declares owner = true)
    (hOwn : symbols.ownMethod? name arity owner = some sig) :
    symbols.method? owner name arity = some (.declared sig) := by
  rcases symbols.links.exists_closure_eq_cons owner with
    ⟨rest, hClosure⟩
  simp only [method?_eq, knownTypes, hClosure,
    List.filter_cons_of_pos hDeclares, List.findSome?_cons, hOwn]
  rfl

/- A constructor that is found is one of the methods. -/
theorem mem_of_findConstructor
    {methods : List DeclaredMethod}
    (hFound : findConstructor arity methods = .ok (some sig)) :
    ∃ m ∈ methods, m.signature = sig := by
  induction methods with
  | nil => simp [findConstructor] at hFound
  | cons m rest ih =>
      simp only [findConstructor, bind_eq_ok_iff,
        need_eq_ok_iff] at hFound
      rcases hFound with ⟨isConstructor, -, hFound⟩
      split at hFound
      · cases hFound
        exact ⟨m, List.mem_cons_self, rfl⟩
      · rcases ih hFound with ⟨m', hMem, hSig⟩
        exact ⟨m', List.mem_cons_of_mem _ hMem, hSig⟩

/- A creation runs a constructor of its type. -/
theorem finds_of_constructor?
    (hSymbols : ofFiles files = .ok symbols)
    {t : Target}
    (hTarget :
      symbols.constructor? owner arity = .ok (some t)) :
    symbols.Finds t := by
  unfold constructor? at hTarget
  split at hTarget
  · rcases bind_eq_ok_iff.mp hTarget with
      ⟨found, hFound, hMap⟩
    cases found with
    | none => cases hMap
    | some sig =>
        cases hMap
        rcases mem_of_findConstructor hFound with
          ⟨m, hMem, rfl⟩
        exact (declares_of_mem_methodsOf hSymbols hMem).2
  · next hUnknown =>
      cases hTarget
      exact finds_external (by simpa using hUnknown) _ arity

end Symbols

end Uncaught
