import Mathlib.Data.List.Chain
import Mathlib.Data.List.Nodup
import Mathlib.Logic.Relation

/-
  This file defines steps and paths in a graph that is given by
  the list of next nodes of each node.

  Key definitions include:
    * `Graph.Next`
    * `Graph.NextIn`
    * `Graph.IsPath`
-/

namespace Uncaught

namespace Graph

variable {α : Type}

/- A step from a node to one of its next nodes. -/
def Next
    (next : α → List α)
    (a b : α) : Prop :=
  b ∈ next a

/- A step from a node to a next one among the given nodes. -/
def NextIn
    (next : α → List α)
    (nodes : List α)
    (a b : α) : Prop :=
  b ∈ next a ∧ b ∈ nodes

theorem NextIn.mono
    {next : α → List α}
    {fewer nodes : List α}
    (hSubset : ∀ n ∈ fewer, n ∈ nodes)
    {a b : α}
    (hStep : NextIn next fewer a b) :
    NextIn next nodes a b :=
  ⟨hStep.1, hSubset b hStep.2⟩

/- Where all next nodes are given, every step is one among them. -/
theorem nextIn_eq_next
    {next : α → List α}
    {nodes : List α}
    (hClosed : ∀ a, ∀ b ∈ next a, b ∈ nodes) :
    NextIn next nodes = Next next := by
  funext a b
  apply propext
  exact ⟨fun hStep => hStep.1,
    fun hStep => ⟨hStep, hClosed a b hStep⟩⟩

/- What is reached among fewer nodes is reached among more. -/
theorem reflTransGen_nextIn_mono
    {next : α → List α}
    {fewer nodes : List α}
    (hSubset : ∀ n ∈ fewer, n ∈ nodes)
    {a b : α}
    (hPath : Relation.ReflTransGen (NextIn next fewer) a b) :
    Relation.ReflTransGen (NextIn next nodes) a b := by
  refine Relation.ReflTransGen.mono ?_ a b hPath
  intro x y hStep
  exact hStep.mono hSubset

/-
  A path from a node: each node is a next one of the node
  before it, and no node comes twice.
-/
structure IsPath
    (next : α → List α)
    (start : α)
    (path : List α) : Prop where
  head : path.head? = some start
  steps : path.IsChain (Next next)
  nodup : path.Nodup

theorem IsPath.singleton
    (next : α → List α)
    (start : α) :
    IsPath next start [start] where
  head := rfl
  steps := List.isChain_singleton start
  nodup := List.nodup_singleton start

/- A path has its first node. -/
theorem IsPath.eq_cons
    {next : α → List α}
    {start : α}
    {path : List α}
    (hPath : IsPath next start path) :
    ∃ rest, path = start :: rest := by
  cases path with
  | nil =>
      have hHead := hPath.head
      simp at hHead
  | cons a rest =>
      have hHead : a = start := by
        simpa using hPath.head
      exact ⟨rest, by rw [hHead]⟩

/- Behind the first node of a path come next nodes only. -/
theorem exists_next_of_mem_tail
    {next : α → List α}
    {start : α}
    {rest : List α}
    (hSteps : (start :: rest).IsChain (Next next))
    {x : α}
    (hx : x ∈ rest) :
    ∃ y, x ∈ next y := by
  induction rest generalizing start with
  | nil => simp at hx
  | cons m rest ih =>
      rcases List.isChain_cons_cons.mp hSteps with
        ⟨hFirst, hRest⟩
      rcases List.mem_cons.mp hx with rfl | hx
      · exact ⟨start, hFirst⟩
      · exact ih hRest hx

/- The nodes of a chain of steps can be reached. -/
theorem reflTransGen_of_mem_chain
    {next : α → List α}
    {start : α}
    {rest : List α}
    (hSteps : (start :: rest).IsChain (Next next))
    {x : α}
    (hx : x ∈ start :: rest) :
    Relation.ReflTransGen (Next next) start x := by
  induction rest generalizing start with
  | nil =>
      rw [List.mem_singleton] at hx
      rw [hx]
  | cons m rest ih =>
      rcases List.isChain_cons_cons.mp hSteps with
        ⟨hFirst, hRest⟩
      rcases List.mem_cons.mp hx with rfl | hx
      · exact .refl
      · exact (ih hRest hx).head hFirst

end Graph

end Uncaught
