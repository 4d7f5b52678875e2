import Uncaught.Java.Outline
import Uncaught.Proofs.Database.Reordering
import Uncaught.Proofs.Resolve.Population
import Uncaught.Proofs.Resolve.SameSymbols

/-
  The order of the files of a project does not matter. Where
  each type is declared in one file, together with its methods
  and fields and their bodies, all that is known of a type comes
  from this file, so that every lookup gives the same for any
  order of the files, and so does all that is made of it.

  Key definitions include:
    * `FileSummary.ParseShaped`
    * `FileSummary.SelfContained`
    * `WellFiled`
    * `classOfText`
    * `Resolution.Same`

  Main declarations:
    * `WellFiled.flatMap_eq`
    * `WellFiled.sameSymbols`
    * `Resolution.Resolves.same`
    * `Resolution.Populates.apart_build`
    * `Resolution.Same.sameFilling`
    * `Resolution.fileOrder_sameAnalysis`
-/

namespace Uncaught

------------------------------------------------------------
-- Projects
------------------------------------------------------------

/- The names of the types of a file. -/
def FileSummary.typeNames
    (f : FileSummary) : List String :=
  f.types.map (·.fqn)

/- The text that a method has by its class and its parameters. -/
def MethodSummary.key?
    (m : MethodSummary) : Option String := do
  return Java.methodKey (← m.owner) (← m.name) (← m.params)

/-
  A summary as a source has it: complete, with the texts of the
  methods made of their classes, names and parameters. The sign
  between a class and a method is not part of a class.
-/
structure FileSummary.ParseShaped
    (f : FileSummary) : Prop where
  complete : f.isComplete = true
  names : ∀ name ∈ f.typeNames, '#' ∉ name.toList
  texts : ∀ m ∈ f.methods.getD [], m.sig = m.key?

/-
  A file whose methods and fields belong to its own types, and
  whose statements belong to its own methods.
-/
structure FileSummary.SelfContained
    (f : FileSummary) : Prop where
  methods :
    ∀ m ∈ f.methods.getD [], ∃ name ∈ f.typeNames,
      m.owner = some name
  fields :
    ∀ d ∈ f.fields, ∃ name ∈ f.typeNames, d.owner = some name
  statements :
    ∀ s ∈ f.statements.getD [], ∃ text ∈ f.methodTexts,
      s.owner = some text

/- A project in which each type is declared by one file. -/
structure WellFiled
    (files : List FileSummary) : Prop where
  shaped : ∀ f ∈ files, f.ParseShaped
  contained : ∀ f ∈ files, f.SelfContained
  apart :
    files.Pairwise fun f g =>
      ∀ name ∈ f.typeNames, name ∉ g.typeNames

variable {files others : List FileSummary}

/- Lists can come in any order of which one has members. -/
theorem flatMap_eq_of_perm
    {α β : Type}
    {g : α → List β}
    {items others : List α}
    (hPerm : items.Perm others)
    (hOne : items.Pairwise fun a b => g a = [] ∨ g b = []) :
    items.flatMap g = others.flatMap g := by
  induction hPerm with
  | nil => rfl
  | cons a _ ih =>
      rw [List.flatMap_cons, List.flatMap_cons,
        ih (List.pairwise_cons.mp hOne).2]
  | swap a b rest =>
      have hHead :=
        (List.pairwise_cons.mp hOne).1 a List.mem_cons_self
      -- Of two neighbours, one gives nothing.
      rcases hHead with hNone | hNone <;> simp [hNone]
  | trans hFirst _ ihFirst ihSecond =>
      have hMiddle := (hFirst.pairwise_iff fun {a b} h =>
        h.symm).mp hOne
      exact (ihFirst hOne).trans (ihSecond hMiddle)

------------------------------------------------------------
-- Texts of Methods
------------------------------------------------------------

/- The class that the text of a method starts with. -/
def classOfText
    (text : String) : String :=
  String.ofList (text.toList.takeWhile (· != '#'))

theorem classOfText_methodKey
    {owner : String}
    (hOwner : '#' ∉ owner.toList)
    (name : String)
    (params : List String) :
    classOfText (Java.methodKey owner name params) = owner := by
  have hClass : ∀ c ∈ owner.toList, (c != '#') = true := by
    intro c hMem
    rw [bne_iff_ne]
    rintro rfl
    exact hOwner hMem
  simp only [classOfText, Java.methodKey, String.toList_append,
    List.append_assoc]
  rw [List.takeWhile_append_of_pos hClass]
  simp

------------------------------------------------------------
-- Order of Files
------------------------------------------------------------

namespace WellFiled

variable (hFiled : WellFiled files)
variable (hPerm : files.Perm others)

include hFiled

/- A type is declared in one file only. -/
theorem eq_of_mem_typeNames
    {f g : FileSummary}
    (hLeft : f ∈ files)
    (hRight : g ∈ files)
    {name : String}
    (hName : name ∈ f.typeNames)
    (hOther : name ∈ g.typeNames) :
    f = g := by
  by_contra hDifferent
  have hSymm :
      Std.Symm fun f g : FileSummary =>
        ∀ name ∈ f.typeNames, name ∉ g.typeNames := by
    constructor
    intro f g hApart name hName hOther
    exact hApart name hOther hName
  exact hFiled.apart.forall hLeft hRight hDifferent name hName
    hOther

include hPerm

theorem of_perm :
    WellFiled others := by
  refine ⟨?_, ?_, ?_⟩
  · intro f hf
    exact hFiled.shaped f (hPerm.mem_iff.mpr hf)
  · intro f hf
    exact hFiled.contained f (hPerm.mem_iff.mpr hf)
  · refine (hPerm.pairwise_iff ?_).mp hFiled.apart
    intro f g hApart name hName hOther
    exact hApart name hOther hName

/- What only the file of a type gives comes in any order. -/
theorem flatMap_eq
    {β : Type}
    {g : FileSummary → List β}
    (owner : String)
    (hOnly : ∀ f ∈ files, ∀ x ∈ g f, owner ∈ f.typeNames) :
    files.flatMap g = others.flatMap g := by
  refine flatMap_eq_of_perm hPerm ?_
  refine hFiled.apart.imp_of_mem ?_
  intro f f' hf hf' hApart
  by_cases hNone : g f = []
  · exact .inl hNone
  · right
    rcases List.exists_mem_of_ne_nil _ hNone with ⟨x, hx⟩
    rw [List.eq_nil_iff_forall_not_mem]
    intro y hy
    exact hApart owner (hOnly f hf x hx) (hOnly f' hf' y hy)

/- So does an entry that only the file of a type makes. -/
theorem get?_ofList_eq
    {κ β : Type}
    [DecidableEq κ]
    {g : FileSummary → List (κ × β)}
    (k : κ)
    (owner : String)
    (hOnly :
      ∀ f ∈ files, ∀ e ∈ g f, e.1 = k → owner ∈ f.typeNames) :
    (Table.ofList (files.flatMap g)).get? k =
      (Table.ofList (others.flatMap g)).get? k := by
  rw [Table.get?_ofList_filter, Table.get?_ofList_filter
    (others.flatMap g), List.filter_flatMap, List.filter_flatMap,
    hFiled.flatMap_eq hPerm owner]
  intro f hf e he
  rcases List.mem_filter.mp he with ⟨hEntry, hKey⟩
  exact hOnly f hf e hEntry (by simpa using hKey)

------------------------------------------------------------
-- Symbols
------------------------------------------------------------

omit hPerm

/- A method that is declared in a file belongs to its types. -/
theorem owner_mem_typeNames
    {n : Names}
    {f : FileSummary}
    (hFile : f ∈ files)
    {e : String × DeclaredMethod}
    (hMem : e ∈ Symbols.declarations n f) :
    e.2.signature.owner ∈ f.typeNames := by
  rcases List.mem_filterMap.mp hMem with ⟨m, hMethod, hEntry⟩
  rcases (hFiled.contained f hFile).methods m hMethod with
    ⟨name, hName, hOwner⟩
  rw [(Symbols.of_declaration? hEntry).2.1] at hOwner
  cases hOwner
  exact hName

/- The text of a method tells its class. -/
theorem classOfText_eq
    {n : Names}
    {f : FileSummary}
    (hFile : f ∈ files)
    {e : String × DeclaredMethod}
    (hMem : e ∈ Symbols.declarations n f) :
    classOfText e.1 = e.2.signature.owner := by
  have hName := (hFiled.shaped f hFile).names _
    (hFiled.owner_mem_typeNames hFile hMem)
  rcases List.mem_filterMap.mp hMem with ⟨m, hMethod, hEntry⟩
  have hKey := (hFiled.shaped f hFile).texts m hMethod
  rcases Symbols.of_declaration? hEntry with
    ⟨hText, hOwner, hMethodName, hParams, -⟩
  rw [hText, MethodSummary.key?, hOwner, hMethodName, hParams]
    at hKey
  rw [Option.some.inj hKey]
  exact classOfText_methodKey hName _ _

variable {symbols other : Symbols}
variable (hLeft : Symbols.ofFiles files = .ok symbols)
variable (hRight : Symbols.ofFiles others = .ok other)

include hPerm hLeft hRight

theorem sameNames :
    symbols.names.Same other.names := by
  intro name
  rw [Symbols.names_of_ofFiles hLeft,
    Symbols.names_of_ofFiles hRight, Names.types_ofFiles,
    Names.types_ofFiles]
  refine hFiled.get?_ofList_eq hPerm name name ?_
  intro f _ e he hName
  rcases List.mem_map.mp he with ⟨t, hType, rfl⟩
  exact List.mem_map.mpr ⟨t, hType, hName⟩

theorem getD_fields_eq
    (owner : String) :
    (symbols.links.fields.get? owner).getD .empty =
      (other.links.fields.get? owner).getD .empty := by
  have hNames := hFiled.sameNames hPerm hLeft hRight
  rw [Links.getD_fields_of_ofFiles
      (Symbols.links_of_ofFiles hLeft),
    Links.getD_fields_of_ofFiles
      (Symbols.links_of_ofFiles hRight),
    ← hNames.fieldEntry_eq, List.filterMap_flatMap,
    List.filterMap_flatMap, hFiled.flatMap_eq hPerm owner]
  intro f hFile e hEntry
  rcases List.mem_filterMap.mp hEntry with ⟨d, hField, hSome⟩
  rcases (hFiled.contained f hFile).fields d hField with
    ⟨name, hName, hOwner⟩
  rw [Links.owner_of_fieldEntry hSome] at hOwner
  cases hOwner
  exact hName

theorem methodsOf_eq
    (owner : String) :
    symbols.methodsOf owner = other.methodsOf owner := by
  have hNames := hFiled.sameNames hPerm hLeft hRight
  rw [Symbols.methodsOf_of_ofFiles hLeft,
    Symbols.methodsOf_of_ofFiles hRight,
    ← hNames.declarations_eq, List.filter_flatMap,
    List.filter_flatMap, hFiled.flatMap_eq hPerm owner]
  intro f hFile e hEntry
  rcases List.mem_filter.mp hEntry with ⟨hMem, hOwner⟩
  rw [← of_decide_eq_true hOwner]
  exact hFiled.owner_mem_typeNames hFile hMem

theorem get?_signatures_eq
    (text : String) :
    symbols.signatures.get? text =
      other.signatures.get? text := by
  have hNames := hFiled.sameNames hPerm hLeft hRight
  rw [Symbols.signatures_of_ofFiles hLeft,
    Symbols.signatures_of_ofFiles hRight,
    ← hNames.declarations_eq, List.map_flatMap,
    List.map_flatMap]
  -- A text can be declared again, but only in the file of its
  -- class, so that the last declaration stays the last.
  refine hFiled.get?_ofList_eq hPerm text (classOfText text) ?_
  intro f hFile e hEntry hText
  rcases List.mem_map.mp hEntry with ⟨d, hMem, rfl⟩
  rw [← hText, hFiled.classOfText_eq hFile hMem]
  exact hFiled.owner_mem_typeNames hFile hMem

/- All lookups give the same for any order of the files. -/
theorem sameSymbols :
    symbols.Same other := by
  have hNames := hFiled.sameNames hPerm hLeft hRight
  have hLinks := Symbols.links_of_ofFiles hLeft
  have hOtherLinks := Symbols.links_of_ofFiles hRight
  refine
    { names := hNames
      parents := ?_
      interfaces := ?_
      fields := hFiled.getD_fields_eq hPerm hLeft hRight
      methods := hFiled.methodsOf_eq hPerm hLeft hRight
      signatures :=
        hFiled.get?_signatures_eq hPerm hLeft hRight }
  · intro name
    rw [Links.get?_parents_of_ofFiles hLinks,
      Links.get?_parents_of_ofFiles hOtherLinks,
      hNames.parentOf_eq]
  · intro name
    rw [Links.getD_interfaces_of_ofFiles hLinks,
      Links.getD_interfaces_of_ofFiles hOtherLinks,
      hNames.interfacesOf_eq]

end WellFiled

------------------------------------------------------------
-- Resolutions
------------------------------------------------------------

namespace Resolution

variable {r other : Resolution}
variable {bodies otherBodies : List (Signature × List Effect)}

/-
  Resolutions that say the same: of calls that are not
  resolved, of each method, of the methods outside, and of each
  type.
-/
structure Same
    (r other : Resolution) : Prop where
  unresolved : r.unresolved = other.unresolved
  facts :
    ∀ s, Option.Rel MethodFacts.Same (r.facts.get? s)
      (other.facts.get? s)
  externals : SameMembers r.externals other.externals
  classes : ∀ name, r.class? name = other.class? name

section

variable (hFiled : WellFiled files)
variable (hPerm : files.Perm others)
variable (hLeft : Resolves files bodies r)
variable (hRight : Resolves others otherBodies other)

include hFiled hPerm hLeft hRight

/- The bodies are the same, in the order of the files. -/
theorem Resolves.bodies_perm :
    bodies.Perm otherBodies := by
  have hSymbols := hFiled.sameSymbols hPerm hLeft.symbols_eq
    hRight.symbols_eq
  rcases map_eq_ok_iff.mp hLeft.bodies_eq with
    ⟨found, hFound, rfl⟩
  rcases map_eq_ok_iff.mp hRight.bodies_eq with
    ⟨otherFound, hOther, rfl⟩
  rcases exists_mapM_of_perm hPerm hFound with
    ⟨reordered, hReordered, hOrder⟩
  rw [hSymbols.bodiesOf_eq, hReordered] at hOther
  cases hOther
  exact hOrder.flatten

/- So are the facts of each method. -/
theorem Resolves.rel_facts
    (s : Signature) :
    Option.Rel MethodFacts.Same (r.facts.get? s)
      (other.facts.get? s) := by
  have hSymbols := hFiled.sameSymbols hPerm hLeft.symbols_eq
    hRight.symbols_eq
  have hBodies := Resolves.bodies_perm hFiled hPerm hLeft hRight
  have hKeys : s ∈ r.facts.keys ↔ s ∈ other.facts.keys := by
    rw [hLeft.mem_keys_facts_iff, hRight.mem_keys_facts_iff,
      Symbols.Declares, Symbols.Declares, hSymbols.methods]
  rw [Table.mem_keys_iff, Table.mem_keys_iff] at hKeys
  apply rel_of_exists
  · intro f hFacts
    rcases hKeys.mp ⟨f, hFacts⟩ with ⟨g, hOther⟩
    refine ⟨g, hOther, (MethodFacts.same_iff f g).mpr ⟨?_, ?_⟩⟩
    · rw [hLeft.ownFacts s f hFacts, hRight.ownFacts s g hOther]
    · intro mark
      have hHas := hLeft.has_iff s mark
      have hOtherHas := hRight.has_iff s mark
      simp only [hBodies.mem_iff] at hHas
      rw [← hOtherHas, hFacts, hOther] at hHas
      simpa using hHas
  · intro g hOther
    exact hKeys.mpr ⟨g, hOther⟩

/- Files in another order are resolved to the same. -/
theorem Resolves.same :
    r.Same other := by
  have hSymbols := hFiled.sameSymbols hPerm hLeft.symbols_eq
    hRight.symbols_eq
  have hBodies := Resolves.bodies_perm hFiled hPerm hLeft hRight
  refine
    { unresolved := ?_
      facts := Resolves.rel_facts hFiled hPerm hLeft hRight
      externals := ?_
      classes := ?_ }
  · rw [hLeft.unresolved_eq, hRight.unresolved_eq,
      (hBodies.flatMap_right Prod.snd).countP_eq]
  · intro s
    simp only [hLeft.mem_externals_iff, hRight.mem_externals_iff,
      hBodies.mem_iff]
  · intro name
    rw [class?, class?, hSymbols.names name, hSymbols.parents,
      hSymbols.interfaces, hSymbols.methods]

end

------------------------------------------------------------
-- Packages
------------------------------------------------------------

/- Methods outside lie in the packages of their types. -/
theorem Resolves.of_mem_externals
    (hResolves : Resolves files bodies r)
    {s : Signature}
    (hMem : s ∈ r.externals) :
    r.symbols.names.declares s.owner = false ∧
      s.package = Platform.packageOf s.owner := by
  rcases (hResolves.mem_externals_iff s).mp hMem with
    ⟨body, hBody, e, hEffect, hExternal⟩
  cases e with
  | call t caught =>
      cases t with
      | declared sig => cases hExternal
      | external sig =>
          cases hExternal
          exact hResolves.finds hBody hEffect
  | _ => cases hExternal

section

variable (hFiled : WellFiled files)
variable (hResolves : Resolves files bodies r)

include hFiled hResolves

/- Declared methods lie in the packages of their files. -/
theorem Resolves.exists_file
    {s : Signature}
    (hDeclares : r.symbols.Declares s) :
    r.symbols.names.declares s.owner = true ∧
      ∃ f ∈ files, s.owner ∈ f.typeNames ∧
        s.package = f.package := by
  rcases (Symbols.declares_iff hResolves.symbols_eq s).mp
      hDeclares with
    ⟨f, hFile, e, hMem, rfl⟩
  have hOwner := hFiled.owner_mem_typeNames hFile hMem
  refine ⟨?_, f, hFile, hOwner, ?_⟩
  · rw [Symbols.names_of_ofFiles hResolves.symbols_eq,
      Names.declares, Table.contains_iff,
      Names.mem_keys_ofFiles_iff]
    exact ⟨f, hFile, List.mem_map.mp hOwner⟩
  · rcases List.mem_filterMap.mp hMem with ⟨m, -, hEntry⟩
    exact (Symbols.of_declaration? hEntry).2.2.2.2.1

/- The class of a known method tells its package. -/
theorem Resolves.package_eq_of_knows
    {a b : Signature}
    (hLeft : r.Knows a)
    (hRight : r.Knows b)
    (hOwner : a.owner = b.owner) :
    a.package = b.package := by
  rcases hLeft with hLeft | hLeft <;>
    rcases hRight with hRight | hRight
  · rcases hResolves.exists_file hFiled hLeft with
      ⟨-, f, hFile, hName, hPackage⟩
    rcases hResolves.exists_file hFiled hRight with
      ⟨-, g, hOther, hOtherName, hOtherPackage⟩
    rw [← hOwner] at hOtherName
    rw [hPackage, hOtherPackage,
      hFiled.eq_of_mem_typeNames hFile hOther hName hOtherName]
  · have hDeclared := (hResolves.exists_file hFiled hLeft).1
    rw [hOwner, (hResolves.of_mem_externals hRight).1]
      at hDeclared
    cases hDeclared
  · have hDeclared := (hResolves.exists_file hFiled hRight).1
    rw [← hOwner, (hResolves.of_mem_externals hLeft).1]
      at hDeclared
    cases hDeclared
  · rw [(hResolves.of_mem_externals hLeft).2,
      (hResolves.of_mem_externals hRight).2, hOwner]

/- So no methods of the call graph tie. -/
theorem Populates.apart_build
    {settings : Settings}
    {db : Database}
    (hPopulates : Populates r settings db) :
    db.build.database.Apart := by
  have hUsed : ∀ s, db.build.database.Uses s → r.Knows s := by
    intro s hUses
    rw [← hPopulates.mem_keys_facts_build_iff hResolves]
    rcases hUses with
      hKey | ⟨caller, written, callee, hCalls, rfl | rfl⟩
    · exact hKey
    · exact (hPopulates.mem_keys_of_callsAs hResolves hCalls).2.2
    · exact (hPopulates.mem_keys_of_callsAs hResolves hCalls).2.1
  intro a b hLeft hRight hOrder
  rcases (Signature.order_eq_eq_iff a b).mp hOrder with
    ⟨hOwner, hName, hParams, -, hThrows⟩
  -- The order takes a package without a name for none, so the
  -- package has to come from the class.
  have hPackage := hResolves.package_eq_of_knows hFiled
    (hUsed a hLeft) (hUsed b hRight) hOwner
  cases a
  cases b
  simp_all

end

------------------------------------------------------------
-- Databases
------------------------------------------------------------

namespace Same

variable (hSame : r.Same other)
variable (hLeft : Resolves files bodies r)
variable (hRight : Resolves others otherBodies other)

include hSame hLeft hRight

/- Resolutions that say the same know the same methods. -/
theorem knows_iff
    (s : Signature) :
    r.Knows s ↔ other.Knows s := by
  have hFacts := eq_none_iff_of_rel (hSame.facts s)
  rw [Table.get?_eq_none_iff, Table.get?_eq_none_iff,
    not_iff_not, hLeft.mem_keys_facts_iff,
    hRight.mem_keys_facts_iff] at hFacts
  rw [Knows, Knows, hFacts, hSame.externals s]

/- They fill databases with the same. -/
theorem sameFilling
    {settings : Settings}
    {db otherDb : Database}
    (hPopulates : Populates r settings db)
    (hOther : Populates other settings otherDb) :
    db.SameFilling otherDb := by
  have hRecords (name : String) :
      db.recordOf name = otherDb.recordOf name := by
    rw [hPopulates.records, hOther.records, recordOf, recordOf,
      hSame.classes]
  refine
    { settings := by rw [hPopulates.settings, hOther.settings]
      facts := ?_
      bound := ?_
      classes := ?_
      records := ?_ }
  · intro s
    rw [hPopulates.facts, hOther.facts]
    exact hSame.facts s
  · intro s
    rw [hPopulates.bound, hOther.bound]
    exact hSame.knows_iff hLeft hRight s
  · intro name
    rw [hPopulates.ownRecords.mem_keys_classes_iff,
      hOther.ownRecords.mem_keys_classes_iff, hRecords]
  · intro name
    rw [hRecords]
    apply rel_of_exists
    · intro c hRecord
      exact ⟨c, hRecord, .refl c⟩
    · intro c hRecord
      exact ⟨c, hRecord⟩

end Same

/- A project in which each type has its file can be resolved. -/
theorem exists_resolves
    (hFiled : WellFiled files) :
    ∃ r bodies, ofFiles files = .ok r ∧
      Resolves files bodies r := by
  have hComplete : ∀ f ∈ files, f.isComplete = true := by
    intro f hFile
    exact (hFiled.shaped f hFile).complete
  have hOwners :
      ∀ f ∈ files, ∀ s ∈ f.statements.getD [],
        ∃ g ∈ files, ∃ text ∈ g.methodTexts,
          s.owner = some text := by
    intro f hFile s hStatement
    exact ⟨f, hFile,
      (hFiled.contained f hFile).statements s hStatement⟩
  exact exists_resolves_of_complete hComplete hOwners

/-
  The order of the files of a project does not matter. Where
  each type is declared by one file, together with its methods,
  fields and statements, the files are resolved in every order,
  to resolutions that say the same. They can be put into new
  databases and built, and what is built has the same content
  and answers every question the same.
-/
theorem fileOrder_sameAnalysis
    (settings : Settings)
    (hFiled : WellFiled files)
    (hPerm : files.Perm others) :
    ∃ r other db otherDb,
      ofFiles files = .ok r ∧
      ofFiles others = .ok other ∧
      r.Same other ∧
      r.populate (.empty settings) = .ok db ∧
      other.populate (.empty settings) = .ok otherDb ∧
      db.build.failure = none ∧
      otherDb.build.failure = none ∧
      db.build.database.SameContent otherDb.build.database ∧
      db.build.database.SameAnalysis otherDb.build.database := by
  rcases exists_resolves hFiled with
    ⟨r, bodies, hRun, hLeft⟩
  rcases exists_resolves (hFiled.of_perm hPerm) with
    ⟨other, otherBodies, hOtherRun, hRight⟩
  rcases hLeft.exists_populate settings with
    ⟨db, hFill, hPopulates⟩
  rcases hRight.exists_populate settings with
    ⟨otherDb, hOtherFill, hOther⟩
  have hSame := Resolves.same hFiled hPerm hLeft hRight
  have hFilling := hSame.sameFilling hLeft hRight hPopulates
    hOther
  have hBuilt := hPopulates.build_failure_eq_none
  have hOtherBuilt := hOther.build_failure_eq_none
  have hApart := hPopulates.apart_build hFiled hLeft
  exact ⟨r, other, db, otherDb, hRun, hOtherRun, hSame, hFill,
    hOtherFill, hBuilt, hOtherBuilt,
    hFilling.sameContent_build hBuilt hOtherBuilt,
    hFilling.sameAnalysis hPopulates.unbuilt hOther.unbuilt
      hBuilt hPopulates.ownNames_build hApart⟩

/-
  An interface, a class that implements it and throws, and a
  caller with a field of the interface, each in its own file.
-/
def acrossFiles : List FileSummary := [
  { path := "Loader.java"
    package := some "p"
    types := [
      { fqn := "p.Loader"
        isInterface := true
        extended := some []
        implemented := some [] }]
    methods := some [
      { owner := some "p.Loader"
        name := some "load"
        sig := some "p.Loader#load()"
        params := some []
        throws := some ["IOException"]
        isConstructor := some false }]
    statements := some [] },
  { path := "Disk.java"
    package := some "p"
    imports := ["java.nio.file.Files"]
    types := [
      { fqn := "p.Disk"
        extended := some []
        implemented := some ["Loader"] }]
    methods := some [
      { owner := some "p.Disk"
        name := some "load"
        sig := some "p.Disk#load()"
        params := some []
        throws := some []
        isConstructor := some false }]
    statements := some [
      { kind := some .call
        owner := some "p.Disk#load()"
        parts := some {
          recv := some (some "Files")
          name := some "readString"
          arity := some 1
          handlers := some [] }
        range := some ⟨0, 1⟩ }] },
  { path := "Main.java"
    package := some "p"
    types := [
      { fqn := "p.Main"
        extended := some []
        implemented := some [] }]
    methods := some [
      { owner := some "p.Main"
        name := some "run"
        sig := some "p.Main#run(String)"
        params := some ["String"]
        throws := some []
        isConstructor := some false }]
    fields := [
      { owner := some "p.Main"
        name := some "loader"
        type := some "Loader" }]
    statements := some [
      { kind := some .call
        owner := some "p.Main#run(String)"
        parts := some {
          recv := some (some "loader")
          name := some "load"
          arity := some 0
          handlers := some ["IOException"] }
        range := some ⟨0, 1⟩ }] }]

theorem wellFiled_acrossFiles :
    WellFiled acrossFiles := by
  refine ⟨?_, ?_, ?_⟩
  · intro f hFile
    refine ⟨?_, ?_, ?_⟩ <;> revert f <;> decide
  · intro f hFile
    refine ⟨?_, ?_, ?_⟩ <;> revert f <;> decide
  · decide

theorem fileOrder_sameAnalysis_acrossFiles :
    ∃ r other db otherDb,
      ofFiles acrossFiles = .ok r ∧
      ofFiles acrossFiles.reverse = .ok other ∧
      r.Same other ∧
      r.populate (.empty {}) = .ok db ∧
      other.populate (.empty {}) = .ok otherDb ∧
      db.build.failure = none ∧
      otherDb.build.failure = none ∧
      db.build.database.SameContent otherDb.build.database ∧
      db.build.database.SameAnalysis otherDb.build.database :=
  fileOrder_sameAnalysis {} wellFiled_acrossFiles
    (List.reverse_perm acrossFiles).symm

end Resolution

end Uncaught
