import Uncaught.Graph.Search
import Uncaught.Proofs.Graph.Basic

/-
  Exactness of the list of maximal paths: it has the paths from
  the start through distinct nodes that no further node extends,
  each of them once, and in the order in which the next nodes
  come.

  Key definitions include:
    * `Graph.IsMaximalPath`

  Main declarations:
    * `Graph.mem_maximalPathsFrom_iff`
    * `Graph.isPath_of_mem_maximalPaths`
    * `Graph.mem_maximalPaths_iff`
    * `Graph.pairwise_lex_maximalPaths`
-/

namespace Uncaught

namespace Graph

variable {α : Type} [DecidableEq α]
variable {next : α → List α}

------------------------------------------------------------
-- Soundness
------------------------------------------------------------

/-
  A maximal path is its node alone where no next node is
  unseen, and otherwise goes on with a maximal path from one of
  them.
-/
theorem mem_maximalPathsFrom_iff
    (unseen : List α)
    (n : α)
    (path : List α) :
    path ∈ maximalPathsFrom next unseen n ↔
      ((∀ m ∈ next n, m ∉ unseen) ∧ path = [n]) ∨
        ∃ m ∈ next n, m ∈ unseen ∧
          ∃ rest ∈ maximalPathsFrom next (unseen.erase m) m,
            path = n :: rest := by
  rw [maximalPathsFrom]
  by_cases hFound :
      ((next n).filter (· ∈ unseen)).isEmpty = true
  · have hNone : ∀ m ∈ next n, m ∉ unseen := by
      simpa [List.isEmpty_iff] using hFound
    simp only [hFound, if_true, List.mem_singleton]
    constructor
    · intro hPath
      exact .inl ⟨hNone, hPath⟩
    · rintro (⟨-, hPath⟩ | ⟨m, hNext, hUnseen, -⟩)
      · exact hPath
      · exact absurd hUnseen (hNone m hNext)
  · have hSome : ¬∀ m ∈ next n, m ∉ unseen := by
      simpa [List.isEmpty_iff] using hFound
    simp only [hFound, Bool.false_eq_true, if_false,
      List.mem_flatMap, List.mem_attach, true_and, Subtype.exists,
      List.mem_map, hSome, false_and, false_or]
    constructor
    · rintro ⟨m, hMem, rest, hRest, rfl⟩
      have hMem := List.mem_filter.mp hMem
      exact ⟨m, hMem.1, by simpa using hMem.2, rest, hRest,
        rfl⟩
    · rintro ⟨m, hNext, hUnseen, rest, hRest, rfl⟩
      exact ⟨m,
        List.mem_filter.mpr ⟨hNext, by simpa using hUnseen⟩,
        rest, hRest, rfl⟩

/-
  A maximal path starts at its node and goes on through unseen
  nodes only.
-/
theorem isPath_of_mem_maximalPathsFrom
    {unseen : List α}
    {n : α}
    (hNodup : unseen.Nodup)
    (hSeen : n ∉ unseen)
    {path : List α}
    (hMem : path ∈ maximalPathsFrom next unseen n) :
    IsPath next n path ∧ ∀ x ∈ path, x = n ∨ x ∈ unseen := by
  -- induction on the unseen nodes, one of which each step takes
  induction hSize : unseen.length generalizing unseen n path with
  | zero =>
      have hEmpty := List.eq_nil_of_length_eq_zero hSize
      subst hEmpty
      rcases (mem_maximalPathsFrom_iff _ _ _).mp hMem with
        ⟨-, rfl⟩ | ⟨m, -, hUnseen, -⟩
      · exact ⟨IsPath.singleton next n, by simp⟩
      · simp at hUnseen
  | succ size ih =>
      rcases (mem_maximalPathsFrom_iff _ _ _).mp hMem with
        ⟨-, rfl⟩ | ⟨m, hNext, hUnseen, rest, hRest, rfl⟩
      · exact ⟨IsPath.singleton next n, by simp⟩
      · have hFewer : (unseen.erase m).length = size := by
          rw [List.length_erase_of_mem hUnseen]
          omega
        rcases ih (hNodup.erase m) hNodup.not_mem_erase hRest
            hFewer with
          ⟨hPath, hNodes⟩
        have hUnseenRest : ∀ x ∈ rest, x ∈ unseen := by
          intro x hx
          rcases hNodes x hx with rfl | hErased
          · exact hUnseen
          · exact List.mem_of_mem_erase hErased
        refine ⟨⟨rfl, ?_, ?_⟩, ?_⟩
        · rcases hPath.eq_cons with ⟨tail, rfl⟩
          exact List.isChain_cons_cons.mpr
            ⟨hNext, hPath.steps⟩
        · exact List.nodup_cons.mpr
            ⟨fun hx => hSeen (hUnseenRest n hx), hPath.nodup⟩
        · intro x hx
          rcases List.mem_cons.mp hx with rfl | hx
          · exact .inl rfl
          · exact .inr (hUnseenRest x hx)

/- The maximal paths of a node are paths from it. -/
theorem isPath_of_mem_maximalPaths
    {nodes : List α}
    {start : α}
    (hNodup : nodes.Nodup)
    {path : List α}
    (hMem : path ∈ maximalPaths next nodes start) :
    IsPath next start path :=
  (isPath_of_mem_maximalPathsFrom (hNodup.erase start)
    hNodup.not_mem_erase hMem).1

------------------------------------------------------------
-- Exactness
------------------------------------------------------------

/-
  A path that no further node extends: the next nodes of its
  last node lie on it.
-/
structure IsMaximalPath
    (next : α → List α)
    (start : α)
    (path : List α) : Prop extends IsPath next start path where
  closed :
    ∀ last, path.getLast? = some last →
      ∀ m ∈ next last, m ∈ path

/- A maximal path has its first node. -/
theorem eq_cons_of_mem_maximalPathsFrom
    {unseen : List α}
    {n : α}
    {path : List α}
    (hMem : path ∈ maximalPathsFrom next unseen n) :
    ∃ rest, path = n :: rest := by
  rcases (mem_maximalPathsFrom_iff _ _ _).mp hMem with
    ⟨-, hPath⟩ | ⟨m, -, -, rest, -, hPath⟩
  · exact ⟨[], hPath⟩
  · exact ⟨rest, hPath⟩

/- The unseen next nodes of the last node lie on the path. -/
theorem closed_of_mem_maximalPathsFrom
    {unseen : List α}
    {n last m : α}
    {path : List α}
    (hMem : path ∈ maximalPathsFrom next unseen n)
    (hLast : path.getLast? = some last)
    (hNext : m ∈ next last)
    (hUnseen : m ∈ unseen) :
    m ∈ path := by
  induction path generalizing unseen n with
  | nil => simp at hLast
  | cons first path ih =>
      rcases (mem_maximalPathsFrom_iff _ _ _).mp hMem with
        ⟨hNone, hPath⟩ | ⟨k, -, -, rest, hRest, hPath⟩
      · cases hPath
        have hSame : first = last := by simpa using hLast
        subst hSame
        exact absurd hUnseen (hNone m hNext)
      · cases hPath
        rcases eq_cons_of_mem_maximalPathsFrom hRest with
          ⟨tail, rfl⟩
        by_cases hFirst : m = k
        · simp [hFirst]
        · have hLeft : m ∈ unseen.erase k :=
            (List.mem_erase_of_ne hFirst).mpr hUnseen
          rw [List.getLast?_cons_cons] at hLast
          exact List.mem_cons_of_mem _ (ih hRest hLast hLeft)

/-
  The search misses no path: one that goes on through unseen
  nodes, until all unseen next nodes are on it, is found.
-/
theorem mem_maximalPathsFrom_of_closed
    {unseen : List α}
    {n : α}
    {rest : List α}
    (hNodup : unseen.Nodup)
    (hSteps : (n :: rest).IsChain (Next next))
    (hDistinct : rest.Nodup)
    (hUnseen : ∀ x ∈ rest, x ∈ unseen)
    (hClosed :
      ∀ last, (n :: rest).getLast? = some last →
        ∀ m ∈ next last, m ∈ unseen → m ∈ rest) :
    n :: rest ∈ maximalPathsFrom next unseen n := by
  induction rest generalizing unseen n with
  | nil =>
      apply (mem_maximalPathsFrom_iff _ _ _).mpr
      refine .inl ⟨?_, rfl⟩
      intro m hNext hLeft
      have hOn := hClosed n rfl m hNext hLeft
      simp at hOn
  | cons m rest ih =>
      rcases List.isChain_cons_cons.mp hSteps with
        ⟨hFirst, hSteps⟩
      rcases List.nodup_cons.mp hDistinct with
        ⟨hNew, hDistinct⟩
      have hMember : m ∈ unseen :=
        hUnseen m List.mem_cons_self
      apply (mem_maximalPathsFrom_iff _ _ _).mpr
      refine .inr ⟨m, hFirst, hMember, m :: rest, ?_, rfl⟩
      apply ih (hNodup.erase m) hSteps hDistinct
      · intro x hx
        have hOther : x ≠ m := fun hSame => hNew (hSame ▸ hx)
        exact (List.mem_erase_of_ne hOther).mpr
          (hUnseen x (List.mem_cons_of_mem _ hx))
      · intro last hLast k hNext hLeft
        rcases hNodup.mem_erase_iff.mp hLeft with
          ⟨hOther, hLeft⟩
        rw [← List.getLast?_cons_cons (a := n)] at hLast
        have hOn := hClosed last hLast k hNext hLeft
        exact List.mem_of_ne_of_mem hOther hOn

/-
  Where all next nodes are given, the maximal paths are those
  that no further node extends.
-/
theorem mem_maximalPaths_iff
    {nodes : List α}
    {start : α}
    (hNodup : nodes.Nodup)
    (hClosed : ∀ a, ∀ b ∈ next a, b ∈ nodes)
    (path : List α) :
    path ∈ maximalPaths next nodes start ↔
      IsMaximalPath next start path := by
  constructor
  · intro hMem
    have hPath := isPath_of_mem_maximalPaths hNodup hMem
    refine ⟨hPath, ?_⟩
    intro last hLast m hNext
    by_cases hStart : m = start
    · rcases hPath.eq_cons with ⟨rest, rfl⟩
      simp [hStart]
    · have hUnseen : m ∈ nodes.erase start :=
        (List.mem_erase_of_ne hStart).mpr
          (hClosed last m hNext)
      exact closed_of_mem_maximalPathsFrom hMem hLast hNext
        hUnseen
  · intro hMaximal
    rcases hMaximal.eq_cons with ⟨rest, rfl⟩
    rcases List.nodup_cons.mp hMaximal.nodup with
      ⟨hStart, hDistinct⟩
    apply mem_maximalPathsFrom_of_closed (hNodup.erase start)
      hMaximal.steps hDistinct
    · intro x hx
      have hOther : x ≠ start := fun hSame => hStart (hSame ▸ hx)
      rcases exists_next_of_mem_tail hMaximal.steps hx with
        ⟨y, hNext⟩
      exact (List.mem_erase_of_ne hOther).mpr
        (hClosed y x hNext)
    · intro last hLast m hNext hUnseen
      have hOther := (hNodup.mem_erase_iff.mp hUnseen).1
      exact List.mem_of_ne_of_mem hOther
        (hMaximal.closed last hLast m hNext)

------------------------------------------------------------
-- Order
------------------------------------------------------------

/- The paths come by the next nodes, one after the other. -/
theorem maximalPathsFrom_eq_flatMap
    {unseen : List α}
    {n : α}
    (hFound : (next n).filter (· ∈ unseen) ≠ []) :
    maximalPathsFrom next unseen n =
      ((next n).filter (· ∈ unseen)).flatMap fun m =>
        (maximalPathsFrom next (unseen.erase m) m).map
          (n :: ·) := by
  rw [maximalPathsFrom]
  simp only [List.isEmpty_iff, hFound, if_false]
  rw [List.flatMap_subtype (g := fun m =>
    (maximalPathsFrom next (unseen.erase m) m).map (n :: ·))
    (fun _ _ => rfl), List.unattach_attach]

/-
  If the next nodes of each node stand in some relation, the
  maximal paths stand in its lexicographic extension.
-/
theorem pairwise_lex_maximalPathsFrom
    {R : α → α → Prop}
    (hNext : ∀ a, (next a).Pairwise R)
    (unseen : List α)
    (n : α) :
    (maximalPathsFrom next unseen n).Pairwise (List.Lex R) := by
  -- induction on the unseen nodes, one of which each step takes
  induction hSize : unseen.length generalizing unseen n with
  | zero =>
      have hEmpty := List.eq_nil_of_length_eq_zero hSize
      subst hEmpty
      rw [maximalPathsFrom]
      simp
  | succ size ih =>
      by_cases hFound : (next n).filter (· ∈ unseen) = []
      · rw [maximalPathsFrom]
        simp [hFound]
      · rw [maximalPathsFrom_eq_flatMap hFound,
          List.pairwise_flatMap]
        constructor
        · intro m hm
          have hUnseen : m ∈ unseen := by
            simpa using (List.mem_filter.mp hm).2
          have hFewer : (unseen.erase m).length = size := by
            rw [List.length_erase_of_mem hUnseen]
            omega
          rw [List.pairwise_map]
          exact (ih _ m hFewer).imp .cons
        · apply ((hNext n).filter _).imp
          intro m k hOrder left hLeft right hRight
          rcases List.mem_map.mp hLeft with ⟨p, hp, rfl⟩
          rcases List.mem_map.mp hRight with ⟨q, hq, rfl⟩
          rcases eq_cons_of_mem_maximalPathsFrom hp with
            ⟨-, rfl⟩
          rcases eq_cons_of_mem_maximalPathsFrom hq with
            ⟨-, rfl⟩
          exact .cons (.rel hOrder)

theorem pairwise_lex_maximalPaths
    {R : α → α → Prop}
    (hNext : ∀ a, (next a).Pairwise R)
    (nodes : List α)
    (start : α) :
    (maximalPaths next nodes start).Pairwise (List.Lex R) :=
  pairwise_lex_maximalPathsFrom hNext _ start

/- No maximal path comes twice if no next node does. -/
theorem nodup_maximalPaths
    (hNext : ∀ a, (next a).Nodup)
    (nodes : List α)
    (start : α) :
    (maximalPaths next nodes start).Nodup :=
  (pairwise_lex_maximalPaths hNext nodes start).imp
    List.Lex.to_ne

end Graph

end Uncaught
