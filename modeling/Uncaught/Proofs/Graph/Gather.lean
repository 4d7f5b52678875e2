import Uncaught.Graph.Search
import Uncaught.Proofs.Graph.Basic

/-
  Exactness of the search for reachable nodes: it finds what
  can be reached, and nothing else.

  Main declarations:
    * `Graph.Reached`
    * `Graph.mem_gather_iff`
    * `Graph.mem_gather_next_iff`
    * `Graph.gather_eq_of_perm`
-/

namespace Uncaught

namespace Graph

open Relation

variable {α : Type} [DecidableEq α]

/-
  A node that is reached through unseen nodes from a waiting
  one.
-/
def Reached
    (next : α → List α)
    (unseen waiting : List α)
    (x : α) : Prop :=
  ∃ w ∈ waiting, w ∈ unseen ∧
    ReflTransGen (NextIn next unseen) w x

/-
  Visiting a waiting node leaves the other reached nodes
  reached: a way through the visited node goes on from one of
  its next nodes, which now wait.
-/
theorem Reached.visit
    {next : α → List α}
    {unseen waiting : List α}
    {n x : α}
    (hReached : Reached next unseen (n :: waiting) x)
    (hOther : x ≠ n) :
    Reached next (unseen.erase n) (waiting ++ next n) x := by
  rcases hReached with ⟨w, hWaiting, hUnseen, hPath⟩
  induction hPath with
  | refl =>
      have hRest : w ∈ waiting := by
        simpa [hOther] using hWaiting
      exact ⟨w, List.mem_append_left _ hRest,
        (List.mem_erase_of_ne hOther).mpr hUnseen, .refl⟩
  | @tail y z _ hStep ih =>
      have hLeft : z ∈ unseen.erase n :=
        (List.mem_erase_of_ne hOther).mpr hStep.2
      by_cases hVisited : y = n
      · subst hVisited
        exact ⟨z, List.mem_append_right _ hStep.1, hLeft,
          .refl⟩
      · rcases ih hVisited with ⟨v, hV, hVUnseen, hVPath⟩
        exact ⟨v, hV, hVUnseen,
          hVPath.tail ⟨hStep.1, hLeft⟩⟩

/- What is reached after visiting a node was reached before. -/
theorem Reached.unvisit
    {next : α → List α}
    {unseen waiting : List α}
    {n x : α}
    (hUnseen : n ∈ unseen)
    (hReached :
      Reached next (unseen.erase n) (waiting ++ next n) x) :
    Reached next unseen (n :: waiting) x := by
  rcases hReached with ⟨w, hWaiting, hLeft, hPath⟩
  have hWider : ReflTransGen (NextIn next unseen) w x :=
    reflTransGen_nextIn_mono
      (fun _ => List.mem_of_mem_erase) hPath
  have hW : w ∈ unseen := List.mem_of_mem_erase hLeft
  rcases List.mem_append.mp hWaiting with hOld | hNew
  · exact ⟨w, List.mem_cons_of_mem _ hOld, hW, hWider⟩
  · exact ⟨n, List.mem_cons_self, hUnseen,
      ReflTransGen.head ⟨hNew, hW⟩ hWider⟩

/- The search finds exactly the reached nodes. -/
theorem mem_gather_iff
    (next : α → List α)
    (unseen waiting : List α)
    (x : α) :
    x ∈ gather next unseen waiting ↔
      Reached next unseen waiting x := by
  fun_induction gather next unseen waiting with
  | case1 => simp [Reached]
  | case2 unseen n waiting hUnseen ih =>
      rw [List.mem_cons, ih]
      constructor
      · rintro (rfl | hReached)
        · exact ⟨x, List.mem_cons_self, hUnseen, .refl⟩
        · exact hReached.unvisit hUnseen
      · intro hReached
        by_cases hOther : x = n
        · exact .inl hOther
        · exact .inr (hReached.visit hOther)
  | case3 unseen n waiting hSeen ih =>
      rw [ih]
      constructor
      · rintro ⟨w, hWaiting, hPath⟩
        exact ⟨w, List.mem_cons_of_mem _ hWaiting, hPath⟩
      · rintro ⟨w, hWaiting, hUnseen, hPath⟩
        rcases List.mem_cons.mp hWaiting with rfl | hRest
        · exact absurd hUnseen hSeen
        · exact ⟨w, hRest, hUnseen, hPath⟩

/-
  Started with the next nodes of a node, the search finds what
  is reached from it in one step or more.
-/
theorem mem_gather_next_iff
    {next : α → List α}
    {nodes : List α}
    (hClosed : ∀ a, ∀ b ∈ next a, b ∈ nodes)
    (n x : α) :
    x ∈ gather next nodes (next n) ↔
      TransGen (Next next) n x := by
  rw [mem_gather_iff, Reached, nextIn_eq_next hClosed,
    TransGen.head'_iff]
  constructor
  · rintro ⟨w, hNext, -, hPath⟩
    exact ⟨w, hNext, hPath⟩
  · rintro ⟨w, hNext, hPath⟩
    exact ⟨w, hNext, hClosed n w hNext, hPath⟩

/- The search does not depend on the order of the nodes. -/
theorem gather_eq_of_perm
    {next : α → List α}
    {unseen others waiting : List α}
    (hPerm : unseen.Perm others) :
    gather next unseen waiting = gather next others waiting := by
  fun_induction gather next unseen waiting
    generalizing others with
  | case1 => rw [gather]
  | case2 unseen n waiting hUnseen ih =>
      rw [gather, if_pos (hPerm.mem_iff.mp hUnseen),
        ih (hPerm.erase n)]
  | case3 unseen n waiting hSeen ih =>
      rw [gather, if_neg fun h => hSeen (hPerm.mem_iff.mpr h),
        ih hPerm]

end Graph

end Uncaught
