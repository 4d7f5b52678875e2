import Uncaught.Dot
import Uncaught.Proofs.Database.Escapes

/-
  What is drawn of chains. Up to its first handler each step of
  a chain is drawn, and a step that several chains have is drawn
  once, with the colour that it has in the first of them. The
  chains of one database agree on which steps are handled, so
  the drawing does not depend on their order.

  Key definitions include:
    * `Chain.LiveStep`
    * `Dot.Key`
    * `Dot.StepIn`
    * `Dot.MethodIn`
    * `Database.Gives`

  Main declarations:
    * `Dot.drawing_eq`
    * `Dot.mem_drawing_iff`
    * `Dot.drawing_exact`
-/

namespace Uncaught

------------------------------------------------------------
-- Live Steps
------------------------------------------------------------

/-
  An entry among others above a method, with the method just
  before it, and with no handled entry before.
-/
def Entry.LiveAbove
    (source : Signature)
    (entries : List Entry)
    (callee : Signature)
    (entry : Entry) : Prop :=
  ∃ i : Nat,
    (source :: entries.map Entry.method)[i]? = some callee ∧
      entries[i]? = some entry ∧
      ∀ j < i, ∀ e, entries[j]? = some e → e.handled = false

/- A step of a chain that no handled entry comes before. -/
def Chain.LiveStep
    (c : Chain)
    (callee : Signature)
    (entry : Entry) : Prop :=
  entry.LiveAbove c.source c.entries callee

namespace Entry

theorem not_liveAbove_nil
    (source callee : Signature)
    (entry : Entry) :
    ¬entry.LiveAbove source [] callee := by
  rintro ⟨i, -, hEntry, -⟩
  simp at hEntry

/- The first step is live, and the rest if it is not handled. -/
theorem liveAbove_cons_iff
    (source callee : Signature)
    (first entry : Entry)
    (rest : List Entry) :
    entry.LiveAbove source (first :: rest) callee ↔
      (callee = source ∧ entry = first) ∨
        (first.handled = false ∧
          entry.LiveAbove first.method rest callee) := by
  constructor
  · rintro ⟨i, hCallee, hEntry, hBefore⟩
    cases i with
    | zero =>
        simp only [List.getElem?_cons_zero, Option.some.injEq]
          at hCallee hEntry
        exact .inl ⟨hCallee.symm, hEntry.symm⟩
    | succ i =>
        refine .inr ⟨hBefore 0 (Nat.zero_lt_succ i) first rfl,
          i, hCallee, hEntry, ?_⟩
        intro j hLess e hOther
        exact hBefore (j + 1) (Nat.succ_lt_succ hLess) e hOther
  · rintro (⟨rfl, rfl⟩ | ⟨hFirst, i, hCallee, hEntry, hBefore⟩)
    · exact ⟨0, rfl, rfl, by simp⟩
    · refine ⟨i + 1, hCallee, hEntry, ?_⟩
      intro j hLess e hOther
      cases j with
      | zero =>
          cases hOther
          exact hFirst
      | succ j =>
          exact hBefore j (Nat.lt_of_succ_lt_succ hLess) e hOther

end Entry

/- Both methods of a live step are methods of the chain. -/
theorem Chain.LiveStep.mem_methods
    {c : Chain}
    {callee : Signature}
    {entry : Entry}
    (hStep : c.LiveStep callee entry) :
    callee ∈ c.methods ∧ entry.method ∈ c.methods := by
  rcases hStep with ⟨i, hCallee, hEntry, -⟩
  refine ⟨List.mem_of_getElem? hCallee, ?_⟩
  exact List.mem_cons_of_mem _
    (List.mem_map_of_mem (List.mem_of_getElem? hEntry))

namespace Dot

------------------------------------------------------------
-- Keys
------------------------------------------------------------

/-
  What a drawing has at most once: the node of an identifier,
  or the edge between two for an exception.
-/
inductive Key where
  | node (id : String)
  | edge (tail head : String) (exc : Option String)
  deriving DecidableEq, Repr

/- What a part of a drawing is there for. -/
def Item.key : Item → Key
  | .node id _ _ => .node id
  | .edge tail head exc _ => .edge tail head exc

/- Add a part, unless there is one with its key. -/
def add
    (items : List Item)
    (i : Item) : List Item :=
  if i.key ∈ items.map Item.key then
    items
  else
    items ++ [i]

/- The node of a method. -/
def nodeOf
    (sources : List Signature)
    (m : Signature) : Item :=
  .node (nodeId m.text) m.text (sources.contains m)

/- The edge of a step for an exception. -/
def edgeOf
    (exc : Option String)
    (callee : Signature)
    (entry : Entry) : Item :=
  .edge (nodeId callee.text) (nodeId entry.method.text) exc
    entry.handled

theorem hasNode_iff
    (items : List Item)
    (id : String) :
    hasNode items id = true ↔
      .node id ∈ items.map Item.key := by
  rw [hasNode, List.any_eq_true, List.mem_map]
  refine exists_congr fun i => and_congr_right fun _ => ?_
  cases i <;> simp [Item.key]

theorem hasEdge_iff
    (items : List Item)
    (tail head : String)
    (exc : Option String) :
    hasEdge items tail head exc = true ↔
      .edge tail head exc ∈ items.map Item.key := by
  rw [hasEdge, List.any_eq_true, List.mem_map]
  refine exists_congr fun i => and_congr_right fun _ => ?_
  cases i <;> simp [Item.key, and_assoc]

theorem addNode_eq
    (sources : List Signature)
    (items : List Item)
    (m : Signature) :
    addNode sources items m = add items (nodeOf sources m) := by
  unfold addNode add
  simp only [hasNode_iff]
  rfl

theorem addEdge_eq
    (items : List Item)
    (exc : Option String)
    (callee : Signature)
    (entry : Entry) :
    addEdge items (nodeId callee.text)
        (nodeId entry.method.text) exc entry.handled =
      add items (edgeOf exc callee entry) := by
  unfold addEdge add
  simp only [hasEdge_iff]
  rfl

/- No key comes twice. -/
theorem nodup_keys_foldl_add
    (wanted : List Item)
    {items : List Item}
    (hNodup : (items.map Item.key).Nodup) :
    ((wanted.foldl add items).map Item.key).Nodup := by
  induction wanted generalizing items with
  | nil => exact hNodup
  | cons i rest ih =>
      apply ih
      unfold add
      split
      · exact hNodup
      · next hNew =>
          rw [List.map_append, List.nodup_append_comm]
          exact List.nodup_cons.mpr ⟨hNew, hNodup⟩

theorem mem_keys_foldl_add_iff
    (wanted items : List Item)
    (key : Key) :
    key ∈ (wanted.foldl add items).map Item.key ↔
      key ∈ items.map Item.key ∨
        ∃ i ∈ wanted, key = i.key := by
  refine foldl_iff
    (M := fun items : List Item => key ∈ items.map Item.key)
    ?_ wanted items
  intro items i
  unfold add
  split
  · next hKnown =>
      refine ⟨.inl, ?_⟩
      rintro (hOld | rfl)
      · exact hOld
      · exact hKnown
  · simp [eq_comm]

/- All that is there was there before, or was to be added. -/
theorem mem_of_mem_foldl_add
    {wanted items : List Item}
    {i : Item}
    (hMem : i ∈ wanted.foldl add items) :
    i ∈ items ∨ i ∈ wanted := by
  induction wanted generalizing items with
  | nil => exact .inl hMem
  | cons first rest ih =>
      rcases ih hMem with hAdded | hRest
      · unfold add at hAdded
        split at hAdded
        · exact .inl hAdded
        · rcases List.mem_append.mp hAdded with hOld | hNew
          · exact .inl hOld
          · rw [List.mem_singleton.mp hNew]
            exact .inr List.mem_cons_self
      · exact .inr (List.mem_cons_of_mem _ hRest)

/- Where keys tell parts apart, all that is wanted is there. -/
theorem mem_foldl_add_iff
    {wanted : List Item}
    (hKeys :
      ∀ i ∈ wanted, ∀ j ∈ wanted, i.key = j.key → i = j)
    (i : Item) :
    i ∈ wanted.foldl add [] ↔ i ∈ wanted := by
  have hWanted :
      ∀ j, j ∈ wanted.foldl add [] → j ∈ wanted := by
    intro j hMem
    simpa using mem_of_mem_foldl_add hMem
  refine ⟨hWanted i, ?_⟩
  intro hMem
  have hKey := (mem_keys_foldl_add_iff wanted [] i.key).mpr
    (.inr ⟨i, hMem, rfl⟩)
  rcases List.mem_map.mp hKey with ⟨j, hDrawn, hSame⟩
  rw [← hKeys j (hWanted j hDrawn) i hMem hSame]
  exact hDrawn

/- A part is the only one with its key. -/
theorem filter_key_eq
    {items : List Item}
    (hNodup : (items.map Item.key).Nodup)
    {i : Item}
    (hMem : i ∈ items) :
    items.filter (fun j => decide (j.key = i.key)) = [i] := by
  induction items with
  | nil => simp at hMem
  | cons first rest ih =>
      rw [List.map_cons, List.nodup_cons] at hNodup
      rcases List.mem_cons.mp hMem with rfl | hRest
      · have hNone :
            rest.filter (fun j => decide (j.key = i.key)) =
              [] := by
          rw [List.filter_eq_nil_iff]
          intro j hOther hSame
          apply hNodup.1
          rw [← of_decide_eq_true hSame]
          exact List.mem_map_of_mem hOther
        rw [List.filter_cons_of_pos (by simp), hNone]
      · have hOther : ¬first.key = i.key := by
          intro hSame
          apply hNodup.1
          rw [hSame]
          exact List.mem_map_of_mem hRest
        rw [List.filter_cons_of_neg (by simpa using hOther)]
        exact ih hNodup.2 hRest

/- An edge has the colour of handled steps if its step is. -/
theorem color_edgeOf_eq_iff
    (exc : Option String)
    (callee : Signature)
    (entry : Entry) :
    (edgeOf exc callee entry).color = handledColor ↔
      entry.handled = true := by
  have hOther : escapedColor ≠ handledColor := by decide
  unfold edgeOf Item.color
  cases entry.handled with
  | true => simp
  | false => simpa using hOther

/- A node has the colour of sources if its method is one. -/
theorem color_nodeOf_eq_iff
    (sources : List Signature)
    (m : Signature) :
    (nodeOf sources m).color = sourceColor ↔ m ∈ sources := by
  have hOther : callerColor ≠ sourceColor := by decide
  unfold nodeOf Item.color
  rw [← List.contains_iff_mem]
  cases sources.contains m with
  | true => simp
  | false => simpa using hOther

------------------------------------------------------------
-- Wanted Parts
------------------------------------------------------------

/- The parts that a chain wants above a method, in order. -/
def wantedAbove
    (sources : List Signature)
    (exc : Option String)
    (callee : Signature) : List Entry → List Item
  | [] => []
  | e :: entries =>
      nodeOf sources e.method :: edgeOf exc callee e ::
        if e.handled then
          []
        else
          wantedAbove sources exc e.method entries

/- The parts that a chain wants, in order. -/
def wantedBy
    (sources : List Signature)
    (c : Chain) : List Item :=
  nodeOf sources c.source ::
    wantedAbove sources c.exception c.source c.entries

theorem addEntries_eq
    (sources : List Signature)
    (exc : Option String)
    (callee : Signature)
    (items : List Item)
    (entries : List Entry) :
    addEntries sources exc (nodeId callee.text) items entries =
      (wantedAbove sources exc callee entries).foldl add
        items := by
  induction entries generalizing callee items with
  | nil => rfl
  | cons e rest ih =>
      rw [addEntries, addNode_eq, addEdge_eq, wantedAbove]
      by_cases hHandled : e.handled = true
      · rw [if_pos hHandled, if_pos hHandled]
        rfl
      · rw [if_neg hHandled, if_neg hHandled, ih]
        rfl

theorem addChain_eq
    (sources : List Signature)
    (items : List Item)
    (c : Chain) :
    addChain sources items c =
      (wantedBy sources c).foldl add items := by
  rw [addChain, addNode_eq, addEntries_eq]
  rfl

/- A drawing has what its chains want, key by key. -/
theorem drawing_eq
    (chains : List Chain) :
    drawing chains =
      (chains.flatMap
        (wantedBy (chains.map Chain.source))).foldl add [] := by
  have hStep :
      addChain (chains.map Chain.source) = fun items c =>
        (wantedBy (chains.map Chain.source) c).foldl add
          items := by
    funext items c
    exact addChain_eq _ items c
  rw [drawing, List.foldl_flatMap]
  exact congrArg (fun f => chains.foldl f []) hStep

theorem mem_wantedAbove_iff
    (sources : List Signature)
    (exc : Option String)
    (source : Signature)
    (entries : List Entry)
    (i : Item) :
    i ∈ wantedAbove sources exc source entries ↔
      ∃ callee entry,
        entry.LiveAbove source entries callee ∧
          (i = nodeOf sources entry.method ∨
            i = edgeOf exc callee entry) := by
  induction entries generalizing source with
  | nil =>
      simp [wantedAbove, Entry.not_liveAbove_nil]
  | cons e rest ih =>
      simp only [wantedAbove, List.mem_cons,
        Entry.liveAbove_cons_iff]
      cases hHandled : e.handled with
      | true => simp
      | false =>
          simp only [ih, Bool.false_eq_true, if_false, true_and]
          constructor
          · rintro (hNode | hEdge | ⟨callee, entry, hLive, hItem⟩)
            · exact ⟨source, e, .inl ⟨rfl, rfl⟩, .inl hNode⟩
            · exact ⟨source, e, .inl ⟨rfl, rfl⟩, .inr hEdge⟩
            · exact ⟨callee, entry, .inr hLive, hItem⟩
          · rintro ⟨callee, entry, ⟨rfl, rfl⟩ | hLive, hItem⟩
            · rcases hItem with hNode | hEdge
              · exact .inl hNode
              · exact .inr (.inl hEdge)
            · exact .inr (.inr ⟨callee, entry, hLive, hItem⟩)

------------------------------------------------------------
-- Steps of Chains
------------------------------------------------------------

/- A step of an exception that one of the chains has alive. -/
def StepIn
    (chains : List Chain)
    (exc : Option String)
    (callee : Signature)
    (entry : Entry) : Prop :=
  ∃ c ∈ chains, c.exception = exc ∧ c.LiveStep callee entry

/-
  A method that one of the chains starts in or comes to, with a
  step that it has alive.
-/
def MethodIn
    (chains : List Chain)
    (m : Signature) : Prop :=
  m ∈ chains.map Chain.source ∨
    ∃ exc callee entry,
      StepIn chains exc callee entry ∧ entry.method = m

/- Distinct methods of the chains have distinct identifiers. -/
def DistinctIds
    (chains : List Chain) : Prop :=
  ∀ c ∈ chains, ∀ m ∈ c.methods,
    ∀ d ∈ chains, ∀ k ∈ d.methods,
      nodeId m.text = nodeId k.text → m = k

instance
    (chains : List Chain) :
    Decidable (DistinctIds chains) :=
  inferInstanceAs (Decidable
    (∀ c ∈ chains, ∀ m ∈ c.methods,
      ∀ d ∈ chains, ∀ k ∈ d.methods,
        nodeId m.text = nodeId k.text → m = k))

/- The chains agree on which steps are handled. -/
def StepsAgree
    (chains : List Chain) : Prop :=
  ∀ exc callee a b,
    StepIn chains exc callee a → StepIn chains exc callee b →
      a.method = b.method → a.handled = b.handled

variable {chains : List Chain}

theorem StepIn.exists_methods
    {exc : Option String}
    {callee : Signature}
    {entry : Entry}
    (hStep : StepIn chains exc callee entry) :
    ∃ c ∈ chains,
      callee ∈ c.methods ∧ entry.method ∈ c.methods := by
  rcases hStep with ⟨c, hChain, -, hLive⟩
  exact ⟨c, hChain, hLive.mem_methods⟩

theorem MethodIn.exists_methods
    {m : Signature}
    (hMethod : MethodIn chains m) :
    ∃ c ∈ chains, m ∈ c.methods := by
  rcases hMethod with hSource | ⟨exc, callee, entry, hStep, rfl⟩
  · rcases List.mem_map.mp hSource with ⟨c, hChain, rfl⟩
    exact ⟨c, hChain, List.mem_cons_self⟩
  · rcases hStep.exists_methods with ⟨c, hChain, -, hMem⟩
    exact ⟨c, hChain, hMem⟩

/- What the chains want is a node or the edge of a live step. -/
theorem mem_wanted_iff
    (sources : List Signature)
    (i : Item) :
    i ∈ chains.flatMap (wantedBy sources) ↔
      (∃ m, MethodIn chains m ∧ i = nodeOf sources m) ∨
        ∃ exc callee entry,
          StepIn chains exc callee entry ∧
            i = edgeOf exc callee entry := by
  simp only [List.mem_flatMap, wantedBy, List.mem_cons,
    mem_wantedAbove_iff]
  constructor
  · rintro ⟨c, hChain, hSource | ⟨callee, entry, hLive, hItem⟩⟩
    · exact .inl ⟨c.source,
        .inl (List.mem_map_of_mem hChain), hSource⟩
    · have hStep : StepIn chains c.exception callee entry :=
        ⟨c, hChain, rfl, hLive⟩
      rcases hItem with hNode | hEdge
      · exact .inl ⟨entry.method,
          .inr ⟨_, _, _, hStep, rfl⟩, hNode⟩
      · exact .inr ⟨_, _, _, hStep, hEdge⟩
  · rintro (⟨m, hMethod, hNode⟩ |
      ⟨exc, callee, entry, ⟨c, hChain, rfl, hLive⟩, hEdge⟩)
    · rcases hMethod with
        hSource | ⟨exc, callee, entry, hStep, rfl⟩
      · rcases List.mem_map.mp hSource with ⟨c, hChain, rfl⟩
        exact ⟨c, hChain, .inl hNode⟩
      · rcases hStep with ⟨c, hChain, -, hLive⟩
        exact ⟨c, hChain,
          .inr ⟨callee, entry, hLive, .inl hNode⟩⟩
    · exact ⟨c, hChain,
        .inr ⟨callee, entry, hLive, .inr hEdge⟩⟩

/-
  Where identifiers tell methods apart and the chains agree, the
  key of a wanted part tells what it is.
-/
theorem eq_of_key_eq
    (hIds : DistinctIds chains)
    (hAgree : StepsAgree chains)
    (sources : List Signature)
    {i j : Item}
    (hFirst : i ∈ chains.flatMap (wantedBy sources))
    (hSecond : j ∈ chains.flatMap (wantedBy sources))
    (hKey : i.key = j.key) :
    i = j := by
  rcases (mem_wanted_iff sources i).mp hFirst with
    ⟨m, hMethod, rfl⟩ | ⟨exc, callee, entry, hStep, rfl⟩
  · rcases (mem_wanted_iff sources j).mp hSecond with
      ⟨k, hOther, rfl⟩ | ⟨exc, callee, entry, -, rfl⟩
    · rcases hMethod.exists_methods with ⟨c, hc, hm⟩
      rcases hOther.exists_methods with ⟨d, hd, hk⟩
      have hSame : m = k :=
        hIds c hc m hm d hd k hk (Key.node.inj hKey)
      rw [hSame]
    · cases hKey
  · rcases (mem_wanted_iff sources j).mp hSecond with
      ⟨k, -, rfl⟩ | ⟨exc', callee', entry', hOther, rfl⟩
    · cases hKey
    · rcases hStep.exists_methods with
        ⟨c, hc, hCallee, hCaller⟩
      rcases hOther.exists_methods with
        ⟨d, hd, hCallee', hCaller'⟩
      rcases Key.edge.inj hKey with ⟨hTail, hHead, rfl⟩
      have hBelow : callee = callee' :=
        hIds c hc _ hCallee d hd _ hCallee' hTail
      have hAbove : entry.method = entry'.method :=
        hIds c hc _ hCaller d hd _ hCaller' hHead
      subst hBelow
      have hHandled :=
        hAgree exc callee entry entry' hStep hOther hAbove
      rw [edgeOf, edgeOf, hAbove, hHandled]

/- What is drawn. -/
theorem mem_drawing_iff
    (hIds : DistinctIds chains)
    (hAgree : StepsAgree chains)
    (i : Item) :
    i ∈ drawing chains ↔
      (∃ m, MethodIn chains m ∧
        i = nodeOf (chains.map Chain.source) m) ∨
      ∃ exc callee entry,
        StepIn chains exc callee entry ∧
          i = edgeOf exc callee entry := by
  rw [drawing_eq, mem_foldl_add_iff, mem_wanted_iff]
  intro i hFirst j hSecond hKey
  exact eq_of_key_eq hIds hAgree _ hFirst hSecond hKey

theorem nodup_keys_drawing
    (chains : List Chain) :
    ((drawing chains).map Item.key).Nodup := by
  rw [drawing_eq]
  exact nodup_keys_foldl_add _ List.nodup_nil

/- The order of the chains does not matter. -/
theorem drawing_perm
    (hIds : DistinctIds chains)
    (hAgree : StepsAgree chains)
    {others : List Chain}
    (hPerm : others.Perm chains) :
    (drawing others).Perm (drawing chains) := by
  have hSteps : StepIn others = StepIn chains := by
    funext exc callee entry
    exact propext (exists_congr fun c =>
      and_congr_left' hPerm.mem_iff)
  have hMethods : MethodIn others = MethodIn chains := by
    funext m
    unfold MethodIn
    rw [hSteps, (hPerm.map Chain.source).mem_iff]
  have hNodes :
      nodeOf (others.map Chain.source) =
        nodeOf (chains.map Chain.source) := by
    funext m
    unfold nodeOf
    rw [(hPerm.map Chain.source).contains_eq]
  have hOthers : DistinctIds others := by
    intro c hc m hm d hd k hk
    exact hIds c (hPerm.mem_iff.mp hc) m hm d
      (hPerm.mem_iff.mp hd) k hk
  have hOthersAgree : StepsAgree others := by
    unfold StepsAgree
    rw [hSteps]
    exact hAgree
  rw [List.perm_ext_iff_of_nodup
    (nodup_keys_drawing others).of_map
    (nodup_keys_drawing chains).of_map]
  intro i
  rw [mem_drawing_iff hOthers hOthersAgree,
    mem_drawing_iff hIds hAgree, hSteps, hMethods, hNodes]

end Dot

------------------------------------------------------------
-- Chains of a Database
------------------------------------------------------------

namespace Database

open Uncaught.Graph

variable {db : Database}

/- A chain that a database gives, from either enumerator. -/
def Gives
    (db : Database)
    (c : Chain) : Prop :=
  ∃ source chains,
    (db.chainsFrom source = .ok chains ∨
      db.allChainsFrom source = .ok chains) ∧ c ∈ chains

theorem isSealed_of_chainsOver
    {paths : List Signature → List (List Signature)}
    {source : Signature}
    {chains : List Chain}
    (hChains : db.chainsOver paths source = .ok chains) :
    db.isSealed = true := by
  rcases bind_eq_ok_iff.mp hChains with ⟨_, hSealed, -⟩
  unfold checkSealed at hSealed
  split at hSealed
  · next hTrue => exact hTrue
  · cases hSealed

/- A chain that is given is that of a path and an exception. -/
theorem Gives.exists_chainAlong
    {c : Chain}
    (hGives : db.Gives c) :
    ∃ exc source callers,
      c = db.chainAlong exc source callers := by
  rcases hGives with ⟨source, chains, hTree | hAll, hChain⟩
  · rw [chainsFrom_eq (isSealed_of_chainsOver hTree)] at hTree
    cases hTree
    rcases (mem_chainsOfPaths_iff _ _ _ _).mp hChain with
      ⟨path, -, exc, -, rfl⟩
    exact ⟨exc, source, path.tail, rfl⟩
  · rw [allChainsFrom_eq (isSealed_of_chainsOver hAll)] at hAll
    cases hAll
    rcases (mem_chainsOfPaths_iff _ _ _ _).mp hChain with
      ⟨path, -, exc, -, rfl⟩
    exact ⟨exc, source, path.tail, rfl⟩

/- Whether a step is handled is the same along all paths. -/
theorem handled_of_liveAbove
    {exc : String}
    {source : Signature}
    {callers : List Signature}
    {callee : Signature}
    {entry : Entry}
    (hLive :
      entry.LiveAbove source
        (db.entriesAlong exc source callers) callee) :
    entry.handled = db.handles exc callee entry.method := by
  induction callers generalizing source with
  | nil => exact absurd hLive (Entry.not_liveAbove_nil _ _ _)
  | cons caller rest ih =>
      rcases (Entry.liveAbove_cons_iff _ _ _ _ _).mp hLive with
        ⟨rfl, rfl⟩ | ⟨-, hRest⟩
      · rfl
      · exact ih hRest

/- The chains of one database agree on their steps. -/
theorem stepsAgree_of_gives
    {chains : List Chain}
    (hGiven : ∀ c ∈ chains, db.Gives c) :
    Dot.StepsAgree chains := by
  have hHandled :
      ∀ exc callee entry,
        Dot.StepIn chains (some exc) callee entry →
          entry.handled =
            db.handles exc callee entry.method := by
    rintro exc callee entry ⟨c, hChain, hExc, hLive⟩
    rcases (hGiven c hChain).exists_chainAlong with
      ⟨other, source, callers, rfl⟩
    cases hExc
    exact handled_of_liveAbove hLive
  intro exc callee a b hFirst hSecond hMethod
  cases exc with
  | none =>
      -- every chain that is given is for an exception
      rcases hFirst with ⟨c, hChain, hExc, -⟩
      rcases (hGiven c hChain).exists_chainAlong with
        ⟨other, source, callers, rfl⟩
      cases hExc
  | some exc =>
      rw [hHandled exc callee a hFirst,
        hHandled exc callee b hSecond, hMethod]

end Database

namespace Dot

/-
  The drawing of chains that one database gives, in which
  distinct methods have distinct identifiers. Each step that
  some chain has alive has one edge for its exception, which has
  the colour of handled steps just if it is handled. Each method
  that a chain starts in or comes to by such a step has one
  node, which has the colour of sources just if some chain
  starts in it. Nothing else is drawn, and the same is drawn in
  whatever order the chains come.
-/
theorem drawing_exact
    {db : Database}
    {chains : List Chain}
    (hGiven : ∀ c ∈ chains, db.Gives c)
    (hIds : DistinctIds chains) :
    (∀ exc callee entry, StepIn chains exc callee entry →
      ∃ edge : Item,
        (drawing chains).filter (fun i =>
          decide (i.key = .edge (nodeId callee.text)
            (nodeId entry.method.text) exc)) = [edge] ∧
        (edge.color = handledColor ↔ entry.handled = true)) ∧
    (∀ m, MethodIn chains m →
      ∃ node : Item,
        (drawing chains).filter (fun i =>
          decide (i.key = .node (nodeId m.text))) = [node] ∧
        (node.color = sourceColor ↔
          ∃ c ∈ chains, c.source = m)) ∧
    (∀ i ∈ drawing chains,
      (∃ exc callee entry, StepIn chains exc callee entry ∧
        i.key = .edge (nodeId callee.text)
          (nodeId entry.method.text) exc) ∨
      ∃ m, MethodIn chains m ∧
        i.key = .node (nodeId m.text)) ∧
    ∀ others : List Chain, others.Perm chains →
      (drawing others).Perm (drawing chains) := by
  have hAgree := Database.stepsAgree_of_gives hGiven
  have hDrawn := mem_drawing_iff hIds hAgree
  have hNodup := nodup_keys_drawing chains
  refine ⟨?_, ?_, ?_, ?_⟩
  · intro exc callee entry hStep
    have hMem := (hDrawn (edgeOf exc callee entry)).mpr
      (.inr ⟨_, _, _, hStep, rfl⟩)
    refine ⟨_, filter_key_eq hNodup hMem, ?_⟩
    rw [color_edgeOf_eq_iff]
  · intro m hMethod
    have hMem :=
      (hDrawn (nodeOf (chains.map Chain.source) m)).mpr
        (.inl ⟨m, hMethod, rfl⟩)
    refine ⟨_, filter_key_eq hNodup hMem, ?_⟩
    rw [color_nodeOf_eq_iff, List.mem_map]
  · intro i hMem
    rcases (hDrawn i).mp hMem with
      ⟨m, hMethod, rfl⟩ | ⟨exc, callee, entry, hStep, rfl⟩
    · exact .inr ⟨m, hMethod, rfl⟩
    · exact .inl ⟨exc, callee, entry, hStep, rfl⟩
  · intro others hPerm
    exact drawing_perm hIds hAgree hPerm

/-
  The chains of a source with two callers, of which one handles
  the exception.
-/
def joinChains : List Chain := [
  Database.sampleChain "a" [("c", false)],
  Database.sampleChain "a" [("b", true), ("e", false)],
  Database.sampleChain "a"
    [("b", true), ("d", false), ("f", false)]]

/- The step to the handler is drawn once for two chains. -/
theorem drawing_exact_joinChains :
    ∃ db edge,
      Database.BuiltFrom {} Database.joinAboveHandler db ∧
      (∀ c ∈ joinChains, db.Gives c) ∧
      DistinctIds joinChains ∧
      StepIn joinChains (some "E") (Database.sampleMethod "a")
        ⟨Database.sampleMethod "b", true⟩ ∧
      (drawing joinChains).filter (fun i =>
        decide (i.key = .edge "A_a__" "A_b__" (some "E"))) =
          [edge] ∧
      edge.color = handledColor := by
  rcases Database.exists_built_joinAboveHandler with
    ⟨db, hBuilt, -, -, -, -, hChains⟩
  have hGiven : ∀ c ∈ joinChains, db.Gives c :=
    fun c hMem => ⟨_, _, .inl hChains, hMem⟩
  have hIds : DistinctIds joinChains := by decide
  have hStep :
      StepIn joinChains (some "E") (Database.sampleMethod "a")
        ⟨Database.sampleMethod "b", true⟩ :=
    ⟨Database.sampleChain "a" [("b", true), ("e", false)],
      by simp [joinChains], rfl, 0, rfl, rfl, by simp⟩
  rcases (drawing_exact hGiven hIds).1 _ _ _ hStep with
    ⟨edge, hEdge, hColor⟩
  exact ⟨db, edge, hBuilt, hGiven, hIds, hStep, hEdge,
    hColor.mpr rfl⟩

end Dot

end Uncaught
