import Mathlib.Data.List.Infix
import Uncaught.Proofs.Data.Sorted
import Uncaught.Proofs.Graph.MaximalPaths
import Uncaught.Proofs.Graph.TreePaths

/-
  How the breadth-first tree relates to the maximal paths: each
  path of the tree is the beginning of a maximal path, and no
  maximal path begins with two paths of the tree. So the tree
  has no more paths. Where a node is reached along one path
  only, the two have the same.

  Key definitions include:
    * `Graph.Apart`
    * `Graph.OnePath`

  Main declarations:
    * `Graph.pairwise_apart_treePaths`
    * `Graph.exists_maximal_of_isPath`
    * `Graph.exists_mem_maximalPaths_iff`
    * `Graph.length_treePaths_le`
    * `Graph.onePath_of_maximalPaths`
    * `Graph.IsMaximalPath.mem_treePaths`
    * `Graph.closed_of_onePath`
-/

namespace Uncaught

namespace Graph

open Relation

variable {α : Type}

------------------------------------------------------------
-- Paths That Part
------------------------------------------------------------

/- Two paths that part: neither is the beginning of the other. -/
def Apart
    (p q : List α) : Prop :=
  ¬p <+: q ∧ ¬q <+: p

theorem Apart.symm
    {p q : List α}
    (hApart : Apart p q) :
    Apart q p :=
  ⟨hApart.2, hApart.1⟩

instance : Std.Symm (Apart : List α → List α → Prop) :=
  ⟨fun _ _ => Apart.symm⟩

/- No path begins with two paths that part. -/
theorem Apart.not_both_prefix
    {p q longer : List α}
    (hApart : Apart p q)
    (hLeft : p <+: longer) :
    ¬q <+: longer := by
  intro hRight
  rcases List.prefix_or_prefix_of_prefix hLeft hRight with
    hFirst | hSecond
  · exact hApart.1 hFirst
  · exact hApart.2 hSecond

/- Paths that part do so however they go on. -/
theorem Apart.extend
    {p q longer other : List α}
    (hApart : Apart p q)
    (hLeft : p <+: longer)
    (hRight : q <+: other) :
    Apart longer other := by
  constructor
  · intro hPrefix
    exact hApart.not_both_prefix (hLeft.trans hPrefix) hRight
  · intro hPrefix
    exact hApart.not_both_prefix hLeft (hRight.trans hPrefix)

/- Paths to different nodes, the same up to there, part. -/
theorem Apart.of_ne
    {m k : α}
    (hOther : m ≠ k)
    (before : List α) :
    Apart (m :: before).reverse (k :: before).reverse := by
  have hNot :
      ∀ a b : α, a ≠ b →
        ¬(a :: before).reverse <+: (b :: before).reverse := by
    intro a b hDifferent hPrefix
    have hSame := hPrefix.eq_of_length (by simp)
    have hCons := List.reverse_injective hSame
    exact hDifferent (List.cons.inj hCons).1
  exact ⟨hNot m k hOther, hNot k m hOther.symm⟩

/-
  Paths that part, each with an extension in a list, are no
  more than the list has members.
-/
theorem length_le_of_apart
    {paths extensions : List (List α)}
    (hApart : paths.Pairwise Apart)
    (hExtends : ∀ p ∈ paths, ∃ q ∈ extensions, p <+: q) :
    paths.length ≤ extensions.length := by
  choose! extension hMem hPrefix using hExtends
  have hDistinct : (paths.map extension).Nodup := by
    rw [List.Nodup, List.pairwise_map]
    apply (List.Pairwise.and_mem.mp hApart).imp
    rintro p q ⟨hp, hq, hParts⟩ hSame
    have hLeft := hPrefix p hp
    rw [hSame] at hLeft
    exact hParts.not_both_prefix hLeft (hPrefix q hq)
  have hSubset : paths.map extension ⊆ extensions := by
    intro q hq
    rcases List.mem_map.mp hq with ⟨p, hp, rfl⟩
    exact hMem p hp
  have hLength := hDistinct.length_le_of_subset hSubset
  rw [List.length_map] at hLength
  exact hLength

------------------------------------------------------------
-- Paths Of The Tree
------------------------------------------------------------

/- A path that waits, from its first node. -/
def waitingPath
    (w : α × List α) : List α :=
  (w.1 :: w.2).reverse

/- The paths to new nodes go on from the path that waits. -/
theorem waitingPath_prefix_cons
    (n m : α)
    (before : List α) :
    waitingPath (n, before) <+: waitingPath (m, n :: before) :=
  List.reverse_prefix.mpr (List.suffix_cons m (n :: before))

variable [DecidableEq α]
variable {next : α → List α} {start : α} {unseen : List α}

/- Every path that is found goes on from one that waits. -/
theorem exists_waiting_of_mem_treePathsFrom
    {waiting : List (α × List α)}
    {path : List α}
    (hMem : path ∈ treePathsFrom next unseen waiting) :
    ∃ w ∈ waiting, waitingPath w <+: path := by
  fun_induction treePathsFrom next unseen waiting with
  | case1 => simp at hMem
  | case2 unseen n before waiting found hLeaf ih =>
      rcases List.mem_cons.mp hMem with rfl | hRest
      · exact ⟨(n, before), List.mem_cons_self, List.prefix_rfl⟩
      · rcases ih hRest with ⟨w, hw, hPrefix⟩
        exact ⟨w, List.mem_cons_of_mem _ hw, hPrefix⟩
  | case3 unseen n before waiting found hFound ih =>
      rcases ih hMem with ⟨w, hw, hPrefix⟩
      rcases List.mem_append.mp hw with hOld | hNew
      · exact ⟨w, List.mem_cons_of_mem _ hOld, hPrefix⟩
      · rcases List.mem_map.mp hNew with ⟨m, -, rfl⟩
        exact ⟨(n, before), List.mem_cons_self,
          (waitingPath_prefix_cons n m before).trans hPrefix⟩

/-
  Expanding a node keeps the waiting paths apart: the new ones
  end in different nodes, and go on from a path that parted
  from the others.
-/
theorem pairwise_apart_expand
    {n : α}
    {before : List α}
    {waiting : List (α × List α)}
    (hApart :
      ((n, before) :: waiting).Pairwise fun v w =>
        Apart (waitingPath v) (waitingPath w)) :
    (waiting ++ (fresh unseen (next n)).map
        (·, n :: before)).Pairwise fun v w =>
      Apart (waitingPath v) (waitingPath w) := by
  rcases List.pairwise_cons.mp hApart with ⟨hFirst, hRest⟩
  rw [List.pairwise_append]
  refine ⟨hRest, ?_, ?_⟩
  · rw [List.pairwise_map]
    apply (nodup_eraseDups _).imp
    intro m k hOther
    exact Apart.of_ne hOther (n :: before)
  · intro v hv w hw
    rcases List.mem_map.mp hw with ⟨m, -, rfl⟩
    exact (hFirst v hv).symm.extend List.prefix_rfl
      (waitingPath_prefix_cons n m before)

/- If the waiting paths part, so do the found ones. -/
theorem pairwise_apart_treePathsFrom
    {waiting : List (α × List α)}
    (hApart :
      waiting.Pairwise fun v w =>
        Apart (waitingPath v) (waitingPath w)) :
    (treePathsFrom next unseen waiting).Pairwise Apart := by
  fun_induction treePathsFrom next unseen waiting with
  | case1 => exact .nil
  | case2 unseen n before waiting found hLeaf ih =>
      rcases List.pairwise_cons.mp hApart with ⟨hFirst, hRest⟩
      refine List.pairwise_cons.mpr ⟨?_, ih hRest⟩
      intro path hPath
      rcases exists_waiting_of_mem_treePathsFrom hPath with
        ⟨w, hw, hPrefix⟩
      exact (hFirst w hw).extend List.prefix_rfl hPrefix
  | case3 unseen n before waiting found hFound ih =>
      exact ih (pairwise_apart_expand hApart)

/- No path of the tree is the beginning of another one. -/
theorem pairwise_apart_treePaths
    (next : α → List α)
    (nodes : List α)
    (start : α) :
    (treePaths next nodes start).Pairwise Apart :=
  pairwise_apart_treePathsFrom
    (List.pairwise_singleton _ (start, []))

------------------------------------------------------------
-- Maximal Extensions
------------------------------------------------------------

/- From every node there is a maximal path. -/
theorem exists_mem_maximalPathsFrom
    (next : α → List α)
    (unseen : List α)
    (n : α) :
    ∃ path, path ∈ maximalPathsFrom next unseen n := by
  -- induction on the unseen nodes, one of which each step takes
  induction hSize : unseen.length generalizing unseen n with
  | zero =>
      have hEmpty := List.eq_nil_of_length_eq_zero hSize
      subst hEmpty
      refine ⟨[n], (mem_maximalPathsFrom_iff _ _ _).mpr ?_⟩
      exact .inl ⟨fun m _ => List.not_mem_nil, rfl⟩
  | succ size ih =>
      by_cases hNone : ∀ m ∈ next n, m ∉ unseen
      · exact ⟨[n], (mem_maximalPathsFrom_iff _ _ _).mpr
          (.inl ⟨hNone, rfl⟩)⟩
      · push Not at hNone
        rcases hNone with ⟨m, hNext, hUnseen⟩
        have hFewer : (unseen.erase m).length = size := by
          rw [List.length_erase_of_mem hUnseen]
          omega
        rcases ih (unseen.erase m) m hFewer with ⟨rest, hRest⟩
        exact ⟨n :: rest, (mem_maximalPathsFrom_iff _ _ _).mpr
          (.inr ⟨m, hNext, hUnseen, rest, hRest, rfl⟩)⟩

/- Every path through unseen nodes begins a maximal one. -/
theorem exists_prefix_mem_maximalPathsFrom
    {unseen : List α}
    {n : α}
    {rest : List α}
    (hSteps : (n :: rest).IsChain (Next next))
    (hDistinct : rest.Nodup)
    (hUnseen : ∀ x ∈ rest, x ∈ unseen) :
    ∃ path ∈ maximalPathsFrom next unseen n,
      n :: rest <+: path := by
  induction rest generalizing unseen n with
  | nil =>
      rcases exists_mem_maximalPathsFrom next unseen n with
        ⟨path, hPath⟩
      rcases eq_cons_of_mem_maximalPathsFrom hPath with
        ⟨tail, rfl⟩
      exact ⟨n :: tail, hPath, List.prefix_append [n] tail⟩
  | cons m rest ih =>
      rcases List.isChain_cons_cons.mp hSteps with
        ⟨hFirst, hSteps⟩
      rcases List.nodup_cons.mp hDistinct with
        ⟨hNew, hDistinct⟩
      have hLeft : ∀ x ∈ rest, x ∈ unseen.erase m := by
        intro x hx
        have hOther : x ≠ m := fun hSame => hNew (hSame ▸ hx)
        exact (List.mem_erase_of_ne hOther).mpr
          (hUnseen x (List.mem_cons_of_mem _ hx))
      rcases ih hSteps hDistinct hLeft with
        ⟨path, hPath, hPrefix⟩
      refine ⟨n :: path, ?_,
        List.cons_prefix_cons.mpr ⟨rfl, hPrefix⟩⟩
      exact (mem_maximalPathsFrom_iff _ _ _).mpr
        (.inr ⟨m, hFirst, hUnseen m List.mem_cons_self, path,
          hPath, rfl⟩)

/- Every path is the beginning of a maximal one. -/
theorem exists_maximal_of_isPath
    {nodes : List α}
    (hClosed : ∀ a, ∀ b ∈ next a, b ∈ nodes)
    {path : List α}
    (hPath : IsPath next start path) :
    ∃ longer ∈ maximalPaths next nodes start,
      path <+: longer := by
  rcases hPath.eq_cons with ⟨rest, rfl⟩
  rcases List.nodup_cons.mp hPath.nodup with
    ⟨hStart, hDistinct⟩
  apply exists_prefix_mem_maximalPathsFrom hPath.steps
    hDistinct
  intro x hx
  have hOther : x ≠ start := fun hSame => hStart (hSame ▸ hx)
  rcases exists_next_of_mem_tail hPath.steps hx with
    ⟨y, hNext⟩
  exact (List.mem_erase_of_ne hOther).mpr (hClosed y x hNext)

/-
  The nodes on the maximal paths are the ones that can be
  reached: what is on a path of the tree is on a longer one.
-/
theorem exists_mem_maximalPaths_iff
    {nodes : List α}
    (hNodup : nodes.Nodup)
    (hClosed : ∀ a, ∀ b ∈ next a, b ∈ nodes)
    (x : α) :
    (∃ path ∈ maximalPaths next nodes start, x ∈ path) ↔
      ReflTransGen (Next next) start x := by
  constructor
  · rintro ⟨path, hMem, hx⟩
    have hPath := isPath_of_mem_maximalPaths hNodup hMem
    rcases hPath.eq_cons with ⟨rest, rfl⟩
    exact reflTransGen_of_mem_chain hPath.steps hx
  · intro hReached
    rcases (exists_mem_treePaths_iff hNodup hClosed x).mpr
        hReached with
      ⟨path, hMem, hx⟩
    have hPath := isPath_of_mem_treePaths hNodup hMem
    rcases exists_maximal_of_isPath hClosed hPath with
      ⟨longer, hLonger, hPrefix⟩
    exact ⟨longer, hLonger, hPrefix.subset hx⟩

/- The tree has no more paths than there are maximal ones. -/
theorem length_treePaths_le
    {nodes : List α}
    (hNodup : nodes.Nodup)
    (hClosed : ∀ a, ∀ b ∈ next a, b ∈ nodes) :
    (treePaths next nodes start).length ≤
      (maximalPaths next nodes start).length := by
  apply length_le_of_apart (pairwise_apart_treePaths _ _ _)
  intro path hMem
  exact exists_maximal_of_isPath hClosed
    (isPath_of_mem_treePaths hNodup hMem)

------------------------------------------------------------
-- Nodes With One Path
------------------------------------------------------------

/- A node is the end of no two paths from the start. -/
def OnePath
    (next : α → List α)
    (start m : α) : Prop :=
  ∀ p q, IsPath next start p → IsPath next start q →
    p.getLast? = some m → q.getLast? = some m → p = q

omit [DecidableEq α] in
/- Only one path ends where it starts. -/
theorem onePath_start
    (next : α → List α)
    (start : α) :
    OnePath next start start := by
  have hAlone :
      ∀ p, IsPath next start p → p.getLast? = some start →
        p = [start] := by
    intro p hPath hLast
    rcases hPath.eq_cons with ⟨rest, rfl⟩
    cases rest with
    | nil => rfl
    | cons m rest =>
        rw [List.getLast?_cons_cons] at hLast
        exact absurd (List.mem_of_getLast? hLast)
          (List.nodup_cons.mp hPath.nodup).1
  intro p q hp hq hpLast hqLast
  rw [hAlone p hp hpLast, hAlone q hq hqLast]

omit [DecidableEq α] in
/- A path can be cut behind each of its nodes. -/
theorem IsPath.exists_prefix_to
    {path : List α}
    (hPath : IsPath next start path)
    {m : α}
    (hMem : m ∈ path) :
    ∃ front, front <+: path ∧ IsPath next start front ∧
      front.getLast? = some m := by
  rcases List.append_of_mem hMem with ⟨before, after, rfl⟩
  have hPrefix : before ++ [m] <+: before ++ m :: after :=
    ⟨after, by simp⟩
  refine ⟨before ++ [m], hPrefix, ⟨?_, ?_, ?_⟩, by simp⟩
  · rw [← hPath.head]
    cases before <;> rfl
  · exact hPath.steps.prefix hPrefix
  · exact hPath.nodup.sublist hPrefix.sublist

omit [DecidableEq α] in
/- A path goes on to each next node that is not on it. -/
theorem IsPath.concat
    {path : List α}
    (hPath : IsPath next start path)
    {last m : α}
    (hLast : path.getLast? = some last)
    (hNext : m ∈ next last)
    (hNew : m ∉ path) :
    IsPath next start (path ++ [m]) where
  head := by
    rw [List.head?_append, hPath.head]
    rfl
  steps := by
    rw [List.isChain_append]
    refine ⟨hPath.steps, List.isChain_singleton m, ?_⟩
    intro x hx y hy
    rw [hLast] at hx
    cases hx
    cases hy
    exact hNext
  nodup := by
    rw [List.nodup_append]
    refine ⟨hPath.nodup, List.nodup_singleton m, ?_⟩
    intro x hx y hy hSame
    rw [List.mem_singleton] at hy
    exact hNew (hy ▸ hSame ▸ hx)

variable {nodes : List α}

/- The one path to a node that is reached begins a tree path. -/
theorem OnePath.exists_mem_treePaths
    {m : α}
    (hOne : OnePath next start m)
    (hNodup : nodes.Nodup)
    (hClosed : ∀ a, ∀ b ∈ next a, b ∈ nodes)
    {path : List α}
    (hPath : IsPath next start path)
    (hLast : path.getLast? = some m) :
    ∃ longer ∈ treePaths next nodes start,
      path <+: longer := by
  have hReached : ReflTransGen (Next next) start m := by
    rcases hPath.eq_cons with ⟨rest, rfl⟩
    exact reflTransGen_of_mem_chain hPath.steps
      (List.mem_of_getLast? hLast)
  rcases (exists_mem_treePaths_iff hNodup hClosed m).mpr
      hReached with
    ⟨longer, hMem, hOn⟩
  have hLonger := isPath_of_mem_treePaths hNodup hMem
  rcases hLonger.exists_prefix_to hOn with
    ⟨front, hPrefix, hFront, hEnd⟩
  rw [← hOne path front hPath hFront hLast hEnd] at hPrefix
  exact ⟨longer, hMem, hPrefix⟩

/-
  The paths are the beginnings of maximal ones, so that these
  tell whether a node has one path.
-/
theorem onePath_of_maximalPaths
    {m : α}
    (hClosed : ∀ a, ∀ b ∈ next a, b ∈ nodes)
    (hOne :
      ∀ p ∈ (maximalPaths next nodes start).flatMap List.inits,
        ∀ q ∈ (maximalPaths next nodes start).flatMap List.inits,
          p.getLast? = some m → q.getLast? = some m → p = q) :
    OnePath next start m := by
  have hBegins :
      ∀ p, IsPath next start p →
        p ∈ (maximalPaths next nodes start).flatMap
          List.inits := by
    intro p hPath
    rcases exists_maximal_of_isPath hClosed hPath with
      ⟨longer, hLonger, hPrefix⟩
    exact List.mem_flatMap.mpr
      ⟨longer, hLonger, (List.mem_inits p longer).mpr hPrefix⟩
  intro p q hp hq
  exact hOne p (hBegins p hp) q (hBegins q hq)

omit [DecidableEq α] in
/- A maximal path is the beginning of no other path. -/
theorem IsMaximalPath.eq_of_prefix
    {path longer : List α}
    (hMaximal : IsMaximalPath next start path)
    (hLonger : IsPath next start longer)
    (hPrefix : path <+: longer) :
    path = longer := by
  rcases hPrefix with ⟨more, rfl⟩
  cases more with
  | nil => exact (List.append_nil path).symm
  | cons m more =>
      exfalso
      have hSome : path ≠ [] := by
        rcases hMaximal.eq_cons with ⟨rest, rfl⟩
        exact List.cons_ne_nil start rest
      have hLast :=
        List.getLast?_eq_some_getLast hSome
      have hNext : m ∈ next (path.getLast hSome) :=
        (List.isChain_append.mp hLonger.steps).2.2 _ hLast m rfl
      have hOn := hMaximal.closed _ hLast m hNext
      exact (List.nodup_append.mp hLonger.nodup).2.2 m hOn m
        List.mem_cons_self rfl

/- A maximal path to a node with one path is in the tree. -/
theorem IsMaximalPath.mem_treePaths
    {path : List α}
    (hMaximal : IsMaximalPath next start path)
    (hNodup : nodes.Nodup)
    (hClosed : ∀ a, ∀ b ∈ next a, b ∈ nodes)
    {last : α}
    (hLast : path.getLast? = some last)
    (hOne : OnePath next start last) :
    path ∈ treePaths next nodes start := by
  rcases hOne.exists_mem_treePaths hNodup hClosed
      hMaximal.toIsPath hLast with
    ⟨longer, hMem, hPrefix⟩
  rw [hMaximal.eq_of_prefix
    (isPath_of_mem_treePaths hNodup hMem) hPrefix]
  exact hMem

/-
  A path of the tree is not cut short where the next nodes of
  its last node have one path each: a next node off the path
  would be found from no other node.
-/
theorem closed_of_onePath
    (hNodup : nodes.Nodup)
    (hClosed : ∀ a, ∀ b ∈ next a, b ∈ nodes)
    {path : List α}
    (hMem : path ∈ treePaths next nodes start)
    {last : α}
    (hLast : path.getLast? = some last)
    (hOne : ∀ m ∈ next last, OnePath next start m) :
    ∀ m ∈ next last, m ∈ path := by
  intro m hNext
  by_contra hNew
  have hPath := isPath_of_mem_treePaths hNodup hMem
  have hLonger := hPath.concat hLast hNext hNew
  rcases (hOne m hNext).exists_mem_treePaths hNodup hClosed
      hLonger (by simp) with
    ⟨other, hOther, hPrefix⟩
  have hBegins : path <+: other :=
    (List.prefix_append path [m]).trans hPrefix
  have hDifferent : path ≠ other := by
    rintro rfl
    have hLength := hPrefix.length_le
    rw [List.length_append, List.length_singleton] at hLength
    omega
  have hApart : Apart path other :=
    (pairwise_apart_treePaths next nodes start).forall hMem
      hOther hDifferent
  exact hApart.1 hBegins

end Graph

end Uncaught
