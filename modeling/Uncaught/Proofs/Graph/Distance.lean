import Uncaught.Proofs.Graph.Visits

/-
  Distances in a graph, and the breadth-first tree as a tree of
  shortest paths: a node of the tree lies as deep as it is far
  from the start, no other path leads to it within the tree,
  and the search goes from the nearer nodes to the farther
  ones.

  Key definitions include:
    * `Graph.ReachedIn`
    * `Graph.IsDistance`
    * `Graph.NoFarther`
    * `Graph.Layered`

  Main declarations:
    * `Graph.Layered.expand`
    * `Graph.isDistance_of_mem_visits`
    * `Graph.isDistance_of_getElem?`
    * `Graph.take_eq_of_shared`
    * `Graph.pairwise_length_treePaths`
    * `Graph.exists_ending_treePath_iff`
    * `Graph.pairwise_noFarther_visits`
-/

namespace Uncaught

namespace Graph

open Relation

variable {α : Type}

------------------------------------------------------------
-- Distances
------------------------------------------------------------

/- A node is reached from the start in a number of steps. -/
inductive ReachedIn
    (R : α → α → Prop)
    (start : α) : Nat → α → Prop where
  | refl : ReachedIn R start 0 start
  | tail {d : Nat} {a b : α} :
      ReachedIn R start d a → R a b →
        ReachedIn R start (d + 1) b

/- A node is reached in some steps, and not in fewer. -/
structure IsDistance
    (R : α → α → Prop)
    (start : α)
    (d : Nat)
    (x : α) : Prop where
  reached : ReachedIn R start d x
  least : ∀ e, ReachedIn R start e x → d ≤ e

/-
  A node is no farther from the start than another one: however
  the other is reached, it is reached in no more steps.
-/
def NoFarther
    (R : α → α → Prop)
    (start a b : α) : Prop :=
  ∀ e, ReachedIn R start e b →
    ∃ d, d ≤ e ∧ ReachedIn R start d a

variable {R : α → α → Prop} {start : α}

theorem NoFarther.refl
    (R : α → α → Prop)
    (start a : α) :
    NoFarther R start a a :=
  fun e hReached => ⟨e, Nat.le_refl e, hReached⟩

theorem ReachedIn.reflTransGen
    {d : Nat}
    {x : α}
    (hReached : ReachedIn R start d x) :
    ReflTransGen R start x := by
  induction hReached with
  | refl => exact .refl
  | tail _ hStep ih => exact ih.tail hStep

theorem isDistance_zero
    (R : α → α → Prop)
    (start : α) :
    IsDistance R start 0 start :=
  ⟨.refl, fun _ _ => Nat.zero_le _⟩

variable [DecidableEq α]
variable {next : α → List α} {unseen : List α}
variable {waiting : List (α × List α)}

/-
  A waiting path comes before another one that is at most one
  longer.
-/
def LevelLe
    (v w : α × List α) : Prop :=
  v.2.length ≤ w.2.length ∧ w.2.length ≤ v.2.length + 1

/-
  What holds of the waiting nodes throughout the search. They
  wait in the order of their depths, of which there are two at
  most; the depth of each is its distance from the start; and a
  node that is seen waits as long as it has an unseen next
  node.
-/
structure Layered
    (next : α → List α)
    (start : α)
    (unseen : List α)
    (waiting : List (α × List α)) : Prop where
  order : waiting.Pairwise LevelLe
  depth :
    ∀ w ∈ waiting,
      IsDistance (Next next) start w.2.length w.1
  start_seen : start ∉ unseen
  waits :
    ∀ a, ReflTransGen (Next next) start a → a ∉ unseen →
      ∀ b ∈ next a, b ∈ unseen → a ∈ waiting.map Prod.fst

namespace Layered

omit [DecidableEq α] in
/-
  An unseen node lies behind a waiting one: on the way to it,
  the last node that is seen still waits.
-/
theorem exists_waiting
    (hLayered : Layered next start unseen waiting)
    {d : Nat}
    {x : α}
    (hReached : ReachedIn (Next next) start d x)
    (hUnseen : x ∈ unseen) :
    ∃ w ∈ waiting, w.2.length < d := by
  induction hReached with
  | refl => exact absurd hUnseen hLayered.start_seen
  | @tail d a b hBefore hStep ih =>
      by_cases hBehind : a ∈ unseen
      · rcases ih hBehind with ⟨w, hw, hDepth⟩
        exact ⟨w, hw, by omega⟩
      · rcases List.mem_map.mp (hLayered.waits a
            hBefore.reflTransGen hBehind b hStep hUnseen) with
          ⟨w, hw, rfl⟩
        have hLeast := (hLayered.depth w hw).least d hBefore
        exact ⟨w, hw, by omega⟩

omit [DecidableEq α] in
/- No waiting node lies higher than the first one. -/
theorem le_depth
    {n : α}
    {before : List α}
    (hLayered :
      Layered next start unseen ((n, before) :: waiting)) :
    ∀ w ∈ (n, before) :: waiting,
      before.length ≤ w.2.length := by
  intro w hw
  rcases List.mem_cons.mp hw with rfl | hRest
  · exact Nat.le_refl _
  · exact ((List.pairwise_cons.mp hLayered.order).1 w hRest).1

omit [DecidableEq α] in
/- What the first waiting node finds is one step farther. -/
theorem isDistance_found
    {n m : α}
    {before : List α}
    (hLayered :
      Layered next start unseen ((n, before) :: waiting))
    (hNext : m ∈ next n)
    (hUnseen : m ∈ unseen) :
    IsDistance (Next next) start (before.length + 1) m := by
  have hHere := hLayered.depth _ List.mem_cons_self
  refine ⟨hHere.reached.tail hNext, ?_⟩
  intro e hReached
  rcases hLayered.exists_waiting hReached hUnseen with
    ⟨w, hw, hDepth⟩
  have hFirst := hLayered.le_depth w hw
  omega

/- Expanding the first waiting node keeps the layers. -/
theorem expand
    {n : α}
    {before : List α}
    (hLayered :
      Layered next start unseen ((n, before) :: waiting)) :
    Layered next start
      (without unseen (fresh unseen (next n)))
      (waiting ++
        (fresh unseen (next n)).map (·, n :: before)) where
  order := by
    rcases List.pairwise_cons.mp hLayered.order with
      ⟨hFirst, hRest⟩
    rw [List.pairwise_append]
    refine ⟨hRest, ?_, ?_⟩
    · rw [List.pairwise_map]
      apply List.pairwise_of_forall
      intro _ _
      exact ⟨Nat.le_refl _, Nat.le_succ _⟩
    · intro v hv w hw
      rcases List.mem_map.mp hw with ⟨m, -, rfl⟩
      have hLevel := hFirst v hv
      simp only [LevelLe, List.length_cons] at hLevel ⊢
      omega
  depth := by
    intro w hw
    rcases List.mem_append.mp hw with hOld | hNew
    · exact hLayered.depth w (List.mem_cons_of_mem _ hOld)
    · rcases List.mem_map.mp hNew with ⟨m, hFresh, rfl⟩
      have hFresh := (mem_fresh _ _ _).mp hFresh
      exact hLayered.isDistance_found hFresh.1 hFresh.2
  start_seen := by
    intro hLeft
    exact hLayered.start_seen ((mem_without _ _ _).mp hLeft).1
  waits := by
    intro a hReached hSeen b hNext hLeft
    rcases (mem_without _ _ _).mp hLeft with
      ⟨hUnseen, hOther⟩
    rw [map_fst_append_found, List.mem_append]
    by_cases hBehind : a ∈ unseen
    · apply Or.inr
      by_contra hFresh
      exact hSeen ((mem_without _ _ _).mpr ⟨hBehind, hFresh⟩)
    · apply Or.inl
      rcases List.mem_cons.mp (hLayered.waits a hReached
          hBehind b hNext hUnseen) with rfl | hRest
      · exact absurd ((mem_fresh _ _ _).mpr ⟨hNext, hUnseen⟩)
          hOther
      · exact hRest

/- In the beginning the start waits alone. -/
theorem initial
    {nodes : List α}
    (hNodup : nodes.Nodup)
    (hClosed : ∀ a, ∀ b ∈ next a, b ∈ nodes) :
    Layered next start (nodes.erase start) [(start, [])] where
  order := List.pairwise_singleton _ _
  depth := by
    intro w hw
    rw [List.mem_singleton.mp hw]
    exact isDistance_zero _ _
  start_seen := hNodup.not_mem_erase
  waits := by
    intro a hReached hSeen _ _ _
    have hStart : a = start := by
      by_contra hOther
      rcases ReflTransGen.cases_tail hReached with
        hSame | ⟨c, -, hStep⟩
      · exact hOther hSame
      · exact hSeen ((List.mem_erase_of_ne hOther).mpr
          (hClosed c a hStep))
    exact List.mem_singleton.mpr hStart

/- Every visited node lies as deep as it is far. -/
theorem isDistance_of_mem_visitsFrom
    (hLayered : Layered next start unseen waiting)
    {v : α × List α}
    (hVisit : v ∈ visitsFrom next unseen waiting) :
    IsDistance (Next next) start v.2.length v.1 := by
  fun_induction visitsFrom next unseen waiting with
  | case1 => simp at hVisit
  | case2 unseen n before waiting ih =>
      rcases List.mem_cons.mp hVisit with rfl | hRest
      · exact hLayered.depth _ List.mem_cons_self
      · exact ih hLayered.expand hRest

end Layered

/- No visited node lies higher than all the waiting ones. -/
theorem le_depth_of_mem_visitsFrom
    {d : Nat}
    (hWaiting : ∀ w ∈ waiting, d ≤ w.2.length)
    {v : α × List α}
    (hVisit : v ∈ visitsFrom next unseen waiting) :
    d ≤ v.2.length := by
  fun_induction visitsFrom next unseen waiting with
  | case1 => simp at hVisit
  | case2 unseen n before waiting ih =>
      have hFirst := hWaiting _ List.mem_cons_self
      rcases List.mem_cons.mp hVisit with rfl | hRest
      · exact hFirst
      · refine ih ?_ hRest
        intro w hw
        rcases List.mem_append.mp hw with hOld | hNew
        · exact hWaiting w (List.mem_cons_of_mem _ hOld)
        · rcases List.mem_map.mp hNew with ⟨m, -, rfl⟩
          exact Nat.le_succ_of_le hFirst

/- The nodes are visited layer after layer. -/
theorem Layered.pairwise_visitsFrom
    (hLayered : Layered next start unseen waiting) :
    (visitsFrom next unseen waiting).Pairwise fun v w =>
      v.2.length ≤ w.2.length := by
  fun_induction visitsFrom next unseen waiting with
  | case1 => exact .nil
  | case2 unseen n before waiting ih =>
      refine List.pairwise_cons.mpr ⟨?_, ih hLayered.expand⟩
      intro v hVisit
      refine le_depth_of_mem_visitsFrom ?_ hVisit
      intro w hw
      rcases List.mem_append.mp hw with hOld | hNew
      · exact hLayered.le_depth w (List.mem_cons_of_mem _ hOld)
      · rcases List.mem_map.mp hNew with ⟨m, -, rfl⟩
        exact Nat.le_succ _

------------------------------------------------------------
-- Shortest Paths
------------------------------------------------------------

variable {nodes : List α}

theorem isDistance_of_mem_visits
    (hNodup : nodes.Nodup)
    (hClosed : ∀ a, ∀ b ∈ next a, b ∈ nodes)
    {v : α × List α}
    (hVisit : v ∈ visits next nodes start) :
    IsDistance (Next next) start v.2.length v.1 :=
  (Layered.initial hNodup hClosed).isDistance_of_mem_visitsFrom
    hVisit

/- The nodes that are visited are the ones that can be reached. -/
theorem mem_map_fst_visits_iff
    (hNodup : nodes.Nodup)
    (hClosed : ∀ a, ∀ b ∈ next a, b ∈ nodes)
    (x : α) :
    x ∈ (visits next nodes start).map Prod.fst ↔
      ReflTransGen (Next next) start x := by
  constructor
  · intro hMem
    rcases List.mem_map.mp hMem with ⟨v, hVisit, rfl⟩
    exact (isDistance_of_mem_visits hNodup hClosed
      hVisit).reached.reflTransGen
  · intro hReached
    rcases (exists_mem_treePaths_iff hNodup hClosed x).mpr
        hReached with
      ⟨path, hPath, hOn⟩
    rcases List.mem_iff_getElem?.mp hOn with ⟨i, hAt⟩
    rcases exists_visit_of_getElem? hPath hAt with
      ⟨before, hVisit, -⟩
    exact List.mem_map.mpr ⟨(x, before), hVisit, rfl⟩

/- The place of a node on a path of the tree is its distance. -/
theorem isDistance_of_getElem?
    (hNodup : nodes.Nodup)
    (hClosed : ∀ a, ∀ b ∈ next a, b ∈ nodes)
    {path : List α}
    (hPath : path ∈ treePaths next nodes start)
    {i : Nat}
    {m : α}
    (hAt : path[i]? = some m) :
    IsDistance (Next next) start i m := by
  rcases exists_visit_of_getElem? hPath hAt with
    ⟨before, hVisit, hLength, -⟩
  rw [← hLength]
  exact isDistance_of_mem_visits hNodup hClosed hVisit

/- Two paths of the tree agree up to each node they share. -/
theorem take_eq_of_shared
    (hNodup : nodes.Nodup)
    {p q : List α}
    (hp : p ∈ treePaths next nodes start)
    (hq : q ∈ treePaths next nodes start)
    {i j : Nat}
    {m : α}
    (hLeft : p[i]? = some m)
    (hRight : q[j]? = some m) :
    p.take (i + 1) = q.take (j + 1) := by
  rcases exists_visit_of_getElem? hp hLeft with
    ⟨before, hVisit, -, hTake⟩
  rcases exists_visit_of_getElem? hq hRight with
    ⟨other, hAgain, -, hOther⟩
  rw [hTake, hOther, eq_of_mem_visits hNodup hVisit hAgain]

/- The paths of the tree come in the order of their lengths. -/
theorem pairwise_length_treePaths
    (hNodup : nodes.Nodup)
    (hClosed : ∀ a, ∀ b ∈ next a, b ∈ nodes)
    (start : α) :
    (treePaths next nodes start).Pairwise fun p q =>
      p.length ≤ q.length := by
  apply List.Pairwise.sublist (treePathsFrom_sublist next _ _)
  rw [List.pairwise_map]
  apply (Layered.initial hNodup hClosed).pairwise_visitsFrom.imp
  intro v w hOrder
  simpa [waitingPath] using hOrder

------------------------------------------------------------
-- Leaves
------------------------------------------------------------

/- The last node of a path of the tree is on no other one. -/
theorem eq_of_last_mem
    (hNodup : nodes.Nodup)
    {p q : List α}
    (hp : p ∈ treePaths next nodes start)
    (hq : q ∈ treePaths next nodes start)
    {m : α}
    (hLast : p.getLast? = some m)
    (hOn : m ∈ q) :
    p = q := by
  by_contra hOther
  have hApart : Apart p q :=
    (pairwise_apart_treePaths next nodes start).forall hp hq
      hOther
  rcases List.mem_iff_getElem?.mp hOn with ⟨j, hAt⟩
  have hEnd := hLast
  rw [List.getLast?_eq_getElem?] at hEnd
  have hTake := take_eq_of_shared hNodup hp hq hEnd hAt
  have hLength : p.length - 1 + 1 = p.length := by
    have hPos :=
      List.length_pos_of_mem (List.mem_of_getLast? hLast)
    omega
  rw [hLength, List.take_length] at hTake
  apply hApart.1
  rw [hTake]
  exact List.take_prefix (j + 1) q

/- The paths of the tree end in distinct nodes. -/
theorem nodup_getLast?_treePaths
    (hNodup : nodes.Nodup)
    (next : α → List α)
    (start : α) :
    ((treePaths next nodes start).map List.getLast?).Nodup := by
  rw [List.Nodup, List.pairwise_map]
  apply (List.Pairwise.and_mem.mp
    (pairwise_apart_treePaths next nodes start)).imp
  rintro p q ⟨hp, hq, hApart⟩ hSame
  cases hLast : p.getLast? with
  | none =>
      rw [List.getLast?_eq_none_iff.mp hLast] at hApart
      exact hApart.1 List.nil_prefix
  | some m =>
      have hOn : m ∈ q :=
        List.mem_of_getLast? (hSame.symm.trans hLast)
      apply hApart.1
      rw [eq_of_last_mem hNodup hp hq hLast hOn]

/-
  The last nodes of the paths are the reached nodes that come
  before no other one on a path.
-/
theorem exists_ending_treePath_iff
    (hNodup : nodes.Nodup)
    (hClosed : ∀ a, ∀ b ∈ next a, b ∈ nodes)
    (m : α) :
    (∃ path ∈ treePaths next nodes start,
        path.getLast? = some m) ↔
      ReflTransGen (Next next) start m ∧
        ∀ path ∈ treePaths next nodes start,
          ∀ k, ¬[m, k] <:+: path := by
  constructor
  · rintro ⟨path, hPath, hLast⟩
    refine ⟨(exists_mem_treePaths_iff hNodup hClosed m).mp
      ⟨path, hPath, List.mem_of_getLast? hLast⟩, ?_⟩
    intro other hOther k hPair
    have hOn : m ∈ other := hPair.subset List.mem_cons_self
    have hSame := eq_of_last_mem hNodup hPath hOther hLast hOn
    rw [← hSame] at hPair
    rcases hPair with ⟨front, back, rfl⟩
    have hAgain : m ∈ k :: back := by
      rw [List.append_assoc, List.getLast?_append_of_ne_nil _
        (by simp), List.cons_append, List.singleton_append,
        List.getLast?_cons_cons] at hLast
      exact List.mem_of_getLast? hLast
    have hDistinct :=
      (isPath_of_mem_treePaths hNodup hPath).nodup
    rw [List.append_assoc] at hDistinct
    exact (List.nodup_cons.mp
      (List.nodup_append.mp hDistinct).2.1).1 hAgain
  · rintro ⟨hReached, hEnd⟩
    rcases (exists_mem_treePaths_iff hNodup hClosed m).mpr
        hReached with
      ⟨path, hPath, hOn⟩
    refine ⟨path, hPath, ?_⟩
    rcases List.append_of_mem hOn with ⟨front, back, rfl⟩
    cases back with
    | nil => simp
    | cons k back =>
        exact absurd ⟨front, back, by simp⟩ (hEnd _ hPath k)

end Graph

end Uncaught
