import Uncaught.Proofs.Data.Except
import Uncaught.Proofs.Graph.Gather

/-
  This file defines the search for reachable nodes that keeps a
  list of visited nodes and a list of waiting ones, to which a
  node may come more than once. It shows that the search ends
  on every finite graph, and that it finds the nodes that
  `Graph.gather` finds.

  Key definitions include:
    * `Graph.visit`
    * `Graph.closure`

  Main declarations:
    * `Graph.exists_visit`
    * `Graph.exists_closure`
-/

namespace Uncaught

namespace Graph

variable {α : Type} [DecidableEq α]

------------------------------------------------------------
-- Search
------------------------------------------------------------

/-
  Visit the waiting nodes, the first one first. A node that is
  visited already is passed over; from any other node its next
  nodes come to the waiting ones, if they are not visited. The
  search has no result if it is not done within the bound.
-/
def visit
    (next : α → List α) :
    Nat → List α → List α → Option (List α)
  | 0, _, _ => none
  | _ + 1, visited, [] => some visited
  | bound + 1, visited, n :: waiting =>
      if n ∈ visited then
        visit next bound visited waiting
      else
        visit next bound (visited ++ [n])
          (waiting ++ (next n).filter (· ∉ visited ++ [n]))

/-
  The nodes after a node. The node itself is one of them only
  if a way leads back to it.
-/
def closure
    (next : α → List α)
    (bound : Nat)
    (start : α) : Option (List α) :=
  visit next bound [] (next start)

------------------------------------------------------------
-- End Of The Search
------------------------------------------------------------

variable {next : α → List α} {nodes visited waiting : List α}

/- Only the unseen ones of the waiting nodes count. -/
theorem mem_gather_congr
    {unseen others : List α}
    (hSame : ∀ w ∈ unseen, w ∈ waiting ↔ w ∈ others)
    (x : α) :
    x ∈ gather next unseen waiting ↔
      x ∈ gather next unseen others := by
  rw [mem_gather_iff, mem_gather_iff]
  constructor
  · rintro ⟨w, hWaiting, hUnseen, hPath⟩
    exact ⟨w, (hSame w hUnseen).mp hWaiting, hUnseen, hPath⟩
  · rintro ⟨w, hWaiting, hUnseen, hPath⟩
    exact ⟨w, (hSame w hUnseen).mpr hWaiting, hUnseen, hPath⟩

/- The nodes that are not visited, without one of them. -/
theorem erase_unvisited
    (hNodup : nodes.Nodup)
    (visited : List α)
    (n : α) :
    (nodes.filter (· ∉ visited)).erase n =
      nodes.filter (· ∉ visited ++ [n]) := by
  rw [(hNodup.filter _).erase_eq_filter, List.filter_filter]
  apply List.filter_congr
  intro m _
  by_cases hSame : m = n <;> simp [hSame]

/-
  Whatever is visited and waits, the search ends. It has then
  visited what was visited before and what is reached from the
  waiting nodes through nodes that were not.
-/
theorem exists_visit
    (hNodup : nodes.Nodup)
    (hClosed : ∀ a, ∀ b ∈ next a, b ∈ nodes)
    (hWaiting : ∀ w ∈ waiting, w ∈ nodes) :
    ∃ found,
      Settles (visit next · visited waiting) (some found) ∧
      ∀ x, x ∈ found ↔
        x ∈ visited ∨
          x ∈ gather next (nodes.filter (· ∉ visited))
            waiting := by
  -- each step takes an unvisited node away, or a waiting one
  induction hSize : (nodes.filter (· ∉ visited)).length
    using Nat.strongRecOn generalizing visited waiting with
  | ind size ih =>
      induction waiting with
      | nil =>
          refine ⟨visited, .succ ?_ (.const _), ?_⟩
          · intro bound
            rw [visit]
          · intro x
            simp [gather]
      | cons n waiting ihWaiting =>
          have hNode : n ∈ nodes :=
            hWaiting n List.mem_cons_self
          have hRest : ∀ w ∈ waiting, w ∈ nodes := fun w hw =>
            hWaiting w (List.mem_cons_of_mem _ hw)
          by_cases hVisited : n ∈ visited
          · rcases ihWaiting hRest with ⟨found, hFound, hMem⟩
            refine ⟨found, hFound.succ ?_, ?_⟩
            · intro bound
              rw [visit, if_pos hVisited]
            · intro x
              rw [hMem x, gather, if_neg (by simp [hVisited])]
          · have hUnseen :
                n ∈ nodes.filter (· ∉ visited) := by
              simp [hNode, hVisited]
            have hErase := erase_unvisited hNodup visited n
            have hFewer :
                (nodes.filter (· ∉ visited ++ [n])).length <
                  size := by
              rw [← hErase, List.length_erase_of_mem hUnseen,
                ← hSize]
              have := List.length_pos_of_mem hUnseen
              omega
            have hAll :
                ∀ w ∈ waiting ++
                    (next n).filter (· ∉ visited ++ [n]),
                  w ∈ nodes := by
              intro w hw
              rcases List.mem_append.mp hw with hOld | hNew
              · exact hRest w hOld
              · exact hClosed n w (List.mem_filter.mp hNew).1
            rcases ih _ hFewer hAll rfl with
              ⟨found, hFound, hMem⟩
            refine ⟨found, hFound.succ ?_, ?_⟩
            · intro bound
              rw [visit, if_neg hVisited]
            · intro x
              have hSame :
                  x ∈ gather next
                      (nodes.filter (· ∉ visited ++ [n]))
                      (waiting ++
                        (next n).filter
                          (· ∉ visited ++ [n])) ↔
                    x ∈ gather next
                      (nodes.filter (· ∉ visited ++ [n]))
                      (waiting ++ next n) := by
                apply mem_gather_congr
                intro w hw
                have hLeft := (List.mem_filter.mp hw).2
                rw [List.mem_append, List.mem_append,
                  List.mem_filter, and_iff_left hLeft]
              rw [hMem x, hSame, gather, if_pos hUnseen,
                hErase, List.mem_append, List.mem_singleton,
                List.mem_cons, or_assoc]

/- The search from a node ends, with the nodes after it. -/
theorem exists_closure
    (hNodup : nodes.Nodup)
    (hClosed : ∀ a, ∀ b ∈ next a, b ∈ nodes)
    (start : α) :
    ∃ found,
      Settles (closure next · start) (some found) ∧
      ∀ x, x ∈ found ↔
        x ∈ gather next nodes (next start) := by
  have hVisit :
      ∃ found,
        Settles (visit next · [] (next start)) (some found) ∧
        ∀ x, x ∈ found ↔
          x ∈ [] ∨
            x ∈ gather next (nodes.filter (· ∉ []))
              (next start) :=
    exists_visit hNodup hClosed (hClosed start)
  rcases hVisit with ⟨found, hFound, hMem⟩
  refine ⟨found, hFound, ?_⟩
  intro x
  simpa using hMem x

end Graph

end Uncaught
