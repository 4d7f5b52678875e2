/-
  This file defines searches in finite graphs that are given by
  the list of next nodes of each node. Every search gets the
  nodes that it may still visit; each step takes one of them
  away, so that cycles end it.

  Key definitions include:
    * `Graph.gather`
    * `Graph.treePaths`
    * `Graph.maximalPaths`
-/

namespace Uncaught

namespace Graph

variable {α : Type} [DecidableEq α]

------------------------------------------------------------
-- Reachable Nodes
------------------------------------------------------------

/-
  The nodes among `unseen` that are reached from the waiting
  ones, nearest first.
-/
def gather
    (next : α → List α)
    (unseen : List α) : List α → List α
  | [] => []
  | n :: waiting =>
      if n ∈ unseen then
        n :: gather next (unseen.erase n) (waiting ++ next n)
      else
        gather next unseen waiting
termination_by waiting => (unseen.length, waiting.length)
decreasing_by
  · rename_i h
    apply Prod.Lex.left
    have := List.length_erase_of_mem h
    have := List.length_pos_of_mem h
    omega
  · apply Prod.Lex.right
    simp

------------------------------------------------------------
-- Breadth-First Tree
------------------------------------------------------------

/- The nodes of a list among `unseen`, each once. -/
def fresh
    (unseen nodes : List α) : List α :=
  (nodes.filter (· ∈ unseen)).eraseDups

/- The nodes of `unseen` that are not in a list. -/
def without
    (unseen nodes : List α) : List α :=
  unseen.filter (· ∉ nodes)

/- Taking away something that is there makes a list shorter. -/
theorem length_without_lt
    {unseen nodes : List α}
    (h : fresh unseen nodes ≠ []) :
    (without unseen (fresh unseen nodes)).length
      < unseen.length := by
  obtain ⟨n, hn⟩ := List.exists_mem_of_ne_nil _ h
  have hmem : n ∈ unseen := by
    have := List.mem_eraseDups.mp hn
    simpa using (List.mem_filter.mp this).2
  refine List.length_filter_lt_length_iff_exists.mpr
    ⟨n, hmem, ?_⟩
  simpa using hn

/-
  The paths to the leaves of the breadth-first tree. A waiting
  path has its last node first. A node belongs to the first
  path that finds it, and a path that finds no node ends in a
  leaf.
-/
def treePathsFrom
    (next : α → List α)
    (unseen : List α) : List (α × List α) → List (List α)
  | [] => []
  | (n, before) :: waiting =>
      let found := fresh unseen (next n)
      if _leaf : found = [] then
        (n :: before).reverse :: treePathsFrom next unseen waiting
      else
        treePathsFrom next (without unseen found)
          (waiting ++ found.map (·, n :: before))
termination_by waiting => (unseen.length, waiting.length)
decreasing_by
  · apply Prod.Lex.right
    simp
  · apply Prod.Lex.left
    exact length_without_lt _leaf

/- The paths from a node to the leaves of its tree. -/
def treePaths
    (next : α → List α)
    (nodes : List α)
    (start : α) : List (List α) :=
  treePathsFrom next (nodes.erase start) [(start, [])]

------------------------------------------------------------
-- Maximal Paths
------------------------------------------------------------

/-
  The paths from a node through distinct nodes that no further
  node extends.
-/
def maximalPathsFrom
    (next : α → List α)
    (unseen : List α)
    (n : α) : List (List α) :=
  let found := (next n).filter (· ∈ unseen)
  if found.isEmpty then
    [[n]]
  else
    found.attach.flatMap fun ⟨m, _found⟩ =>
      (maximalPathsFrom next (unseen.erase m) m).map (n :: ·)
termination_by unseen.length
decreasing_by
  have hm : m ∈ unseen := by
    simpa using (List.mem_filter.mp _found).2
  have := List.length_erase_of_mem hm
  have := List.length_pos_of_mem hm
  omega

/- The maximal paths from a node among the given nodes. -/
def maximalPaths
    (next : α → List α)
    (nodes : List α)
    (start : α) : List (List α) :=
  maximalPathsFrom next (nodes.erase start) start

end Graph

end Uncaught
