import Uncaught.Proofs.Drawing

/-
  Identifiers of nodes. An identifier has an underscore in the
  place of every character that it does not keep, so that texts
  which differ in such characters only have one identifier. The
  methods of a drawing have nodes of their own just if there are
  no two such texts among theirs.

  Key definitions include:
    * `Dot.IsMark`
    * `Dot.Alike`
    * `Dot.TextsApart`
    * `Dot.OwnNodes`
    * `Dot.OwnEdges`

  Main declarations:
    * `Dot.nodeId_eq_iff`
    * `Dot.ownNodes_iff`
    * `Dot.ownEdges_of_textsApart`
    * `Dot.distinct_nodes_iff`
-/

namespace Uncaught

/- A live step is above another one, or above the source. -/
theorem Entry.LiveAbove.eq_or_exists
    {source callee : Signature}
    {entries : List Entry}
    {entry : Entry}
    (hLive : entry.LiveAbove source entries callee) :
    callee = source ∨
      ∃ lower below, Entry.LiveAbove source entries lower below ∧
        below.method = callee := by
  induction entries generalizing source with
  | nil => exact absurd hLive (not_liveAbove_nil _ _ _)
  | cons first rest ih =>
      simp only [liveAbove_cons_iff] at hLive ⊢
      rcases hLive with ⟨rfl, -⟩ | ⟨hFirst, hRest⟩
      · exact .inl rfl
      · rcases ih hRest with rfl | ⟨lower, below, hBelow, rfl⟩
        · exact .inr ⟨source, first, .inl ⟨rfl, rfl⟩, rfl⟩
        · exact .inr ⟨lower, below, .inr ⟨hFirst, hBelow⟩, rfl⟩

namespace Dot

------------------------------------------------------------
-- Texts with One Identifier
------------------------------------------------------------

/- A character that an identifier has an underscore for. -/
def IsMark
    (c : Char) : Prop :=
  c = '_' ∨ c ∈ special

/-
  Texts that have the same character at each place, or two
  marks.
-/
def Alike
    (s t : String) : Prop :=
  List.Forall₂ (fun c d => c = d ∨ (IsMark c ∧ IsMark d))
    s.toList t.toList

/- Two characters are written alike if they are both marks. -/
theorem written_eq_iff
    (c d : Char) :
    (if special.contains c then '_' else c) =
        (if special.contains d then '_' else d) ↔
      c = d ∨ (IsMark c ∧ IsMark d) := by
  simp only [List.contains_iff_mem, IsMark]
  by_cases hFirst : c ∈ special
  · by_cases hSecond : d ∈ special
    · simp [hFirst, hSecond]
    · have hOther : c ≠ d := by
        rintro rfl
        exact hSecond hFirst
      simp [hFirst, hSecond, hOther, eq_comm]
  · by_cases hSecond : d ∈ special
    · have hOther : c ≠ d := by
        rintro rfl
        exact hFirst hSecond
      simp [hFirst, hSecond, hOther]
    · simp only [hFirst, hSecond, if_false, or_false]
      constructor
      · exact .inl
      · rintro (hSame | ⟨rfl, rfl⟩)
        · exact hSame
        · rfl

/- Texts have one identifier just if they are alike. -/
theorem nodeId_eq_iff
    (s t : String) :
    nodeId s = nodeId t ↔ Alike s t := by
  rw [nodeId, nodeId, String.ofList_inj, ← List.forall₂_eq_eq_eq,
    List.forall₂_map_left_iff, List.forall₂_map_right_iff,
    Alike]
  simp only [written_eq_iff]

------------------------------------------------------------
-- Parts of a Drawing
------------------------------------------------------------

variable {chains : List Chain}

/- The parts of a drawing that are there for a key. -/
def drawnFor
    (chains : List Chain)
    (key : Key) : List Item :=
  (drawing chains).filter fun i => decide (i.key = key)

/- A wanted part, or another one for its key, is drawn. -/
theorem exists_drawnFor_eq
    {i : Item}
    (hWanted :
      i ∈ chains.flatMap (wantedBy (chains.map Chain.source))) :
    ∃ j ∈ chains.flatMap (wantedBy (chains.map Chain.source)),
      j.key = i.key ∧ drawnFor chains i.key = [j] := by
  have hKey : i.key ∈ (drawing chains).map Item.key := by
    rw [drawing_eq, mem_keys_foldl_add_iff]
    exact .inr ⟨i, hWanted, rfl⟩
  rcases List.mem_map.mp hKey with ⟨j, hDrawn, hSame⟩
  have hOnly := filter_key_eq (nodup_keys_drawing chains) hDrawn
  rw [hSame] at hOnly
  rw [drawing_eq] at hDrawn
  have hMem := mem_of_mem_foldl_add hDrawn
  rw [List.mem_nil_iff, false_or] at hMem
  exact ⟨j, hMem, hSame, hOnly⟩

/- A method has one node, with the text of one that is alike. -/
theorem exists_drawnFor_node
    {m : Signature}
    (hMethod : MethodIn chains m) :
    ∃ k isSource, MethodIn chains k ∧ Alike k.text m.text ∧
      drawnFor chains (.node (nodeId m.text)) =
        [.node (nodeId m.text) k.text isSource] := by
  rcases exists_drawnFor_eq ((mem_wanted_iff _ _).mpr
      (.inl ⟨m, hMethod, rfl⟩)) with
    ⟨j, hWanted, hKey, hOnly⟩
  rcases (mem_wanted_iff _ j).mp hWanted with
    ⟨k, hOther, rfl⟩ | ⟨exc, callee, entry, -, rfl⟩
  · have hSame : nodeId k.text = nodeId m.text :=
      Key.node.inj hKey
    have hNode :
        nodeOf (chains.map Chain.source) k =
          .node (nodeId m.text) k.text
            ((chains.map Chain.source).contains k) := by
      rw [nodeOf, hSame]
    rw [hNode] at hOnly
    exact ⟨k, _, hOther, (nodeId_eq_iff _ _).mp hSame, hOnly⟩
  · cases hKey

/- The key of the edge of a step. -/
def stepKey
    (exc : Option String)
    (callee caller : Signature) : Key :=
  .edge (nodeId callee.text) (nodeId caller.text) exc

/- A step has one edge. -/
theorem exists_drawnFor_edge
    {exc : Option String}
    {callee : Signature}
    {entry : Entry}
    (hStep : StepIn chains exc callee entry) :
    ∃ edge : Item,
      edge.key = stepKey exc callee entry.method ∧
        drawnFor chains (stepKey exc callee entry.method) =
          [edge] := by
  rcases exists_drawnFor_eq ((mem_wanted_iff _ _).mpr
      (.inr ⟨exc, callee, entry, hStep, rfl⟩)) with
    ⟨edge, -, hKey, hOnly⟩
  exact ⟨edge, hKey, hOnly⟩

------------------------------------------------------------
-- Nodes and Edges of Their Own
------------------------------------------------------------

/- No two different texts of methods that are drawn are alike. -/
def TextsApart
    (chains : List Chain) : Prop :=
  ∀ m k, MethodIn chains m → MethodIn chains k →
    Alike m.text k.text → m.text = k.text

/- Where identifiers tell methods apart, their texts are. -/
theorem DistinctIds.textsApart
    (hIds : DistinctIds chains) :
    TextsApart chains := by
  intro m k hFirst hSecond hAlike
  rcases hFirst.exists_methods with ⟨c, hc, hm⟩
  rcases hSecond.exists_methods with ⟨d, hd, hk⟩
  rw [hIds c hc m hm d hd k hk ((nodeId_eq_iff _ _).mpr hAlike)]

/- The one node of each method has its own text. -/
def OwnNodes
    (chains : List Chain) : Prop :=
  ∀ m, MethodIn chains m →
    ∃ isSource,
      drawnFor chains (.node (nodeId m.text)) =
        [.node (nodeId m.text) m.text isSource]

/-
  Steps for different exceptions, or between methods with other
  texts, have different edges.
-/
def OwnEdges
    (chains : List Chain) : Prop :=
  ∀ exc callee entry exc' callee' entry',
    StepIn chains exc callee entry →
    StepIn chains exc' callee' entry' →
    ¬(exc = exc' ∧ callee.text = callee'.text ∧
      entry.method.text = entry'.method.text) →
    ∃ edge edge' : Item,
      drawnFor chains (stepKey exc callee entry.method) =
        [edge] ∧
      drawnFor chains (stepKey exc' callee' entry'.method) =
        [edge'] ∧
      edge ≠ edge'

theorem distinctNodeIds_iff
    (chains : List Chain) :
    (∀ m k, MethodIn chains m → MethodIn chains k →
      m.text ≠ k.text → nodeId m.text ≠ nodeId k.text) ↔
      TextsApart chains := by
  refine forall₂_congr fun m k => ?_
  refine forall₂_congr fun _ _ => ?_
  rw [← nodeId_eq_iff, ne_eq, ne_eq, not_imp_not]

/- Methods have nodes of their own if no texts are alike. -/
theorem ownNodes_iff
    (chains : List Chain) :
    OwnNodes chains ↔ TextsApart chains := by
  constructor
  · intro hOwn m k hFirst hSecond hAlike
    rcases hOwn m hFirst with ⟨isSource, hNode⟩
    rcases hOwn k hSecond with ⟨isSource', hNode'⟩
    -- alike texts have one node, and it has one text
    rw [(nodeId_eq_iff _ _).mpr hAlike, hNode'] at hNode
    exact (Item.node.inj (List.singleton_inj.mp hNode)).2.1.symm
  · intro hApart m hMethod
    rcases exists_drawnFor_node hMethod with
      ⟨k, isSource, hOther, hAlike, hNode⟩
    rw [hApart k m hOther hMethod hAlike] at hNode
    exact ⟨isSource, hNode⟩

/- The methods of a step are drawn. -/
theorem StepIn.methodIn
    {exc : Option String}
    {callee : Signature}
    {entry : Entry}
    (hStep : StepIn chains exc callee entry) :
    MethodIn chains callee ∧ MethodIn chains entry.method := by
  refine ⟨?_, .inr ⟨exc, callee, entry, hStep, rfl⟩⟩
  rcases hStep with ⟨c, hChain, hExc, hLive⟩
  rcases hLive.eq_or_exists with
    rfl | ⟨lower, below, hBelow, rfl⟩
  · exact .inl (List.mem_map_of_mem hChain)
  · exact .inr ⟨exc, lower, below, ⟨c, hChain, hExc, hBelow⟩,
      rfl⟩

/- Steps have edges of their own if no texts are alike. -/
theorem ownEdges_of_textsApart
    (hApart : TextsApart chains) :
    OwnEdges chains := by
  intro exc callee entry exc' callee' entry' hFirst hSecond
    hOther
  rcases exists_drawnFor_edge hFirst with ⟨edge, hKey, hEdge⟩
  rcases exists_drawnFor_edge hSecond with
    ⟨edge', hKey', hEdge'⟩
  refine ⟨edge, edge', hEdge, hEdge', ?_⟩
  rintro rfl
  rw [hKey] at hKey'
  rcases Key.edge.inj hKey' with ⟨hTail, hHead, hExc⟩
  apply hOther
  refine ⟨hExc, ?_, ?_⟩
  · exact hApart _ _ hFirst.methodIn.1 hSecond.methodIn.1
      ((nodeId_eq_iff _ _).mp hTail)
  · exact hApart _ _ hFirst.methodIn.2 hSecond.methodIn.2
      ((nodeId_eq_iff _ _).mp hHead)

/-
  The nodes and edges of any chains. Methods that are drawn
  have different identifiers where their texts differ just if no
  two of the texts are alike. Just then each of them has a node
  of its own, and then the steps between them have edges of
  their own as well.
-/
theorem distinct_nodes_iff
    (chains : List Chain) :
    ((∀ m k, MethodIn chains m → MethodIn chains k →
      m.text ≠ k.text → nodeId m.text ≠ nodeId k.text) ↔
        TextsApart chains) ∧
    (OwnNodes chains ↔ TextsApart chains) ∧
    (TextsApart chains → OwnEdges chains) :=
  ⟨distinctNodeIds_iff chains, ownNodes_iff chains,
    ownEdges_of_textsApart⟩

/- The steps of one exception from two methods to a third. -/
def twoSteps
    (first second caller : Signature) : List Chain := [
  { source := first
    entries := [{ method := caller }]
    exception := some "E" },
  { source := second
    entries := [{ method := caller }]
    exception := some "E" }]

/- A class in a package, and one with almost its name. -/
def namesakes : List Chain :=
  twoSteps
    { owner := "a.B", name := "f", params := ["int"] }
    { owner := "aB", name := "f", params := ["int"] }
    { owner := "a.B", name := "f", params := ["int", "int"] }

/- Methods with similar names have nodes of their own. -/
theorem distinct_nodes_iff_namesakes :
    TextsApart namesakes ∧ OwnNodes namesakes ∧
      OwnEdges namesakes := by
  have hIds : DistinctIds namesakes := by decide
  have hApart := hIds.textsApart
  have hSpec := distinct_nodes_iff namesakes
  exact ⟨hApart, hSpec.2.1.mpr hApart, hSpec.2.2 hApart⟩

/-
  Two methods of a class with one name: one has a parameter
  whose type stands in another type, one has a parameter of each
  of the two types.
-/
def overloads : List Chain :=
  twoSteps
    { owner := "M", name := "f", params := ["A.B"] }
    { owner := "M", name := "f", params := ["A", "B"] }
    { owner := "M", name := "g" }

/-
  The two methods have different texts, but one identifier: the
  second has no node of its own, and its step no edge.
-/
theorem overloads_share_node :
    ∃ m k, MethodIn overloads m ∧ MethodIn overloads k ∧
      m.text ≠ k.text ∧ nodeId m.text = nodeId k.text ∧
      drawing overloads = [
        .node "M_f_A_B_" "M#f(A.B)" true,
        .node "M_g__" "M#g()" false,
        .edge "M_f_A_B_" "M_g__" (some "E") false] := by
  refine ⟨{ owner := "M", name := "f", params := ["A.B"] },
    { owner := "M", name := "f", params := ["A", "B"] },
    .inl ?_, .inl ?_, ?_, ?_, ?_⟩
  · exact List.mem_cons_self
  · exact List.mem_cons_of_mem _ List.mem_cons_self
  · decide
  · decide
  · decide

end Dot

end Uncaught
