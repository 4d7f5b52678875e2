import Uncaught.Proofs.Data.Sorted
import Uncaught.Proofs.Database.Chains
import Uncaught.Proofs.Database.Enumeration

/-
  This file defines the searches for chains with all that is
  taken for granted in them checked at each step. It shows that
  on a sealed database every search ends, that no check ever
  fails, and that the chains are those of `Database.chainsFrom`
  and `Database.allChainsFrom`.

  Key definitions include:
    * `Fault`
    * `Checked`
    * `Database.searchTree`
    * `Database.explore`
    * `Database.checkedChainsFrom`
    * `Database.checkedAllChainsFrom`

  Main declarations:
    * `Database.searchTree_settles`
    * `Database.explore_settles`
    * `Database.sealed_queries_succeed`
-/

namespace Uncaught

------------------------------------------------------------
-- Checks
------------------------------------------------------------

/-
  What can go wrong in a search: the database fails, a method
  has no place in the index, a method on the way back has no
  parent, a path that is left does not end in the method that
  leaves it, or a path has no method.
-/
inductive Fault where
  | database (e : DatabaseError)
  | noBucket (m : Signature)
  | noParent (m : Signature)
  | otherEnd (m : Signature)
  | emptyPath

/-
  A search with checks. It has no outcome if it is not done
  within the bound on its steps.
-/
abbrev Checked (α : Type) :=
  ExceptT Fault Option α

/- An outcome of a database in a search. -/
def Checked.ofOutcome
    {α : Type}
    (outcome : Outcome α) : Checked α :=
  ExceptT.mk (some (outcome.mapError .database))

/- A search that is not done. -/
def Checked.unfinished
    {α : Type} : Checked α :=
  ExceptT.mk none

/- Fail unless a condition holds. -/
def Checked.ensure
    (condition : Bool)
    (fault : Fault) : Checked Unit :=
  if condition then pure () else throw fault

namespace Database

open Uncaught.Graph Checked

------------------------------------------------------------
-- Breadth-First Search
------------------------------------------------------------

/-
  The way back from a method to the start of a search, in front
  of a path. The start is the method without a parent.
-/
def climb
    (parents : Table Signature (Option Signature)) :
    Nat → List Signature → Option Signature →
      Checked (List Signature)
  | 0, _, _ => unfinished
  | _ + 1, path, none => pure path
  | bound + 1, path, some m =>
      match parents.get? m with
      | none => throw (.noParent m)
      | some parent => climb parents bound (m :: path) parent

/-
  What a search knows while it looks at the callers of a
  method: the parents of the methods that it has met, the
  methods that wait, and whether it has met a new one.
-/
structure Discovery where
  parents : Table Signature (Option Signature)
  queue : List Signature
  discovered : Bool

/- Look at a caller of a method. -/
def Discovery.look
    (m : Signature)
    (d : Discovery)
    (caller : Signature) : Discovery :=
  if d.parents.contains caller then
    d
  else
    { parents := d.parents.insert caller (some m)
      queue := d.queue ++ [caller]
      discovered := true }

/-
  Search the callers of the waiting methods, breadth first. A
  method by which no other one is met ends a path.
-/
def searchTree
    (db : Database) :
    Nat → Table Signature (Option Signature) →
      List (List Signature) → List Signature →
        Checked (List (List Signature))
  | 0, _, _, _ => unfinished
  | _ + 1, _, paths, [] => pure paths
  | bound + 1, parents, paths, m :: queue => do
      ensure (db.callers.contains m) (.noBucket m)
      let callers ← ofOutcome (db.callersOf m)
      let d := callers.foldl (Discovery.look m)
        ⟨parents, queue, false⟩
      if d.discovered then
        db.searchTree bound d.parents paths d.queue
      else
        let path ← climb d.parents bound [] (some m)
        db.searchTree bound d.parents (paths ++ [path]) d.queue

------------------------------------------------------------
-- Depth-First Search
------------------------------------------------------------

/-
  What a depth-first search keeps: the path that it is on, the
  methods on it, and the paths that it has found.
-/
structure Trail where
  path : List Signature
  onPath : List Signature
  found : List (List Signature)

namespace Trail

/- Go on to a method. -/
def enter
    (t : Trail)
    (m : Signature) : Trail :=
  { t with
    path := t.path ++ [m]
    onPath := t.onPath.insert m }

/- Keep some paths. -/
def keep
    (t : Trail)
    (paths : List (List Signature)) : Trail :=
  { t with found := t.found ++ paths }

/- Go back from a method. -/
def leave
    (t : Trail)
    (m : Signature) : Trail :=
  { t with
    path := t.path.dropLast
    onPath := t.onPath.erase m }

/-
  Go back from a method after its callers. If no path has gone
  on from it, the path to it is kept.
-/
def finish
    (t : Trail)
    (extended : Bool)
    (m : Signature) : Checked Trail := do
  let t := if extended then t else t.keep [t.path]
  ensure (t.path.getLast? == some m) (.otherEnd m)
  return t.leave m

end Trail

/-
  Search all paths on from a method, depth first. With the
  trail goes whether a path has gone on from the method.
-/
def explore
    (db : Database) :
    Nat → Signature → Trail → Checked Trail
  | 0, _, _ => unfinished
  | bound + 1, m, t => do
      ensure (db.callers.contains m) (.noBucket m)
      let callers ← ofOutcome (db.callersOf m)
      let s ← callers.foldlM
        (fun s caller =>
          if caller ∈ s.1.onPath then
            pure s
          else do
            let t ← db.explore bound caller s.1
            return (t, true))
        (t.enter m, false)
      s.1.finish s.2 m

------------------------------------------------------------
-- Chains
------------------------------------------------------------

/- The chains along a path, which has to have a method. -/
def checkedChainsAlong
    (db : Database)
    (exceptions : List String)
    (path : List Signature) : Checked (List Chain) := do
  ensure (!path.isEmpty) .emptyPath
  ofOutcome (db.chainsAlong exceptions path)

/- The chains of a source along the paths of a search. -/
def checkedChains
    (db : Database)
    (search : Checked (List (List Signature)))
    (source : Signature) : Checked (List Chain) := do
  ofOutcome db.checkSealed
  if db.facts.contains source then
    let exceptions ← ofOutcome (db.exceptionsOf source)
    let paths ← search
    let chains ← paths.mapM (db.checkedChainsAlong exceptions)
    return chains.flatten
  else
    return []

/- The chains from a source by a breadth-first search. -/
def checkedChainsFrom
    (db : Database)
    (bound : Nat)
    (source : Signature) : Checked (List Chain) :=
  db.checkedChains
    (db.searchTree bound (Table.empty.insert source none) []
      [source])
    source

/- The chains from a source by a depth-first search. -/
def checkedAllChainsFrom
    (db : Database)
    (bound : Nat)
    (source : Signature) : Checked (List Chain) :=
  db.checkedChains
    (Trail.found <$> db.explore bound source ⟨[], [], []⟩)
    source

variable {db : Database}

------------------------------------------------------------
-- Checks That Hold
------------------------------------------------------------

theorem ensure_of_true
    {condition : Bool}
    (hTrue : condition = true)
    (fault : Fault) :
    ensure condition fault = pure () := by
  rw [ensure, if_pos hTrue]

theorem ofOutcome_of_ok
    {α : Type}
    {outcome : Outcome α}
    {a : α}
    (hOk : outcome = .ok a) :
    ofOutcome outcome = pure a := by
  rw [hOk]
  rfl

theorem callersOf_eq
    (hSealed : db.isSealed = true)
    (m : Signature) :
    db.callersOf m = .ok (db.callersIn m) := by
  simp [callersOf, checkSealed, hSealed, bind, Except.bind,
    pure, Except.pure]

/- At its start a search has met one method of the index. -/
theorem mem_erase_keys_iff
    {m source : Signature}
    (hIndex : m ∈ db.callers.keys) :
    m ∈ db.callers.keys.erase source ↔ m ≠ source :=
  (List.Nodup.mem_erase_iff db.callers.nodup).trans
    (and_iff_left hIndex)

------------------------------------------------------------
-- The Way Back
------------------------------------------------------------

/-
  The parents lead from a method back through the methods of a
  list, the last of which is the start of the search.
-/
def Traces
    (parents : Table Signature (Option Signature)) :
    Signature → List Signature → Prop
  | m, [] => parents.get? m = some none
  | m, parent :: before =>
      parents.get? m = some (some parent) ∧
        Traces parents parent before

variable {parents : Table Signature (Option Signature)}

/- The way back ends, and gives the path in its direction. -/
theorem climb_settles
    {m : Signature}
    {before : List Signature}
    (hTraces : Traces parents m before)
    (path : List Signature) :
    Settles (climb parents · path (some m))
      (pure ((m :: before).reverse ++ path)) := by
  induction before generalizing m path with
  | nil =>
      have hStart :
          Settles (climb parents · (m :: path) none)
            (pure (m :: path)) :=
        .succ (fun _ => by rw [climb]) (.const _)
      apply hStart.succ
      intro bound
      rw [climb, hTraces]
  | cons parent before ih =>
      have hRest := ih hTraces.2 (m :: path)
      rw [List.reverse_cons, List.append_assoc,
        List.singleton_append]
      apply hRest.succ
      intro bound
      rw [climb, hTraces.1]

/- New parents of new methods leave the ways back alone. -/
theorem Traces.mono
    {others : Table Signature (Option Signature)}
    (hKept :
      ∀ k ∈ parents.keys, others.get? k = parents.get? k)
    {m : Signature}
    {before : List Signature}
    (hTraces : Traces parents m before) :
    Traces others m before := by
  have hKnown :
      ∀ {k parent}, parents.get? k = some parent →
        others.get? k = some parent := by
    intro k parent hParent
    rw [hKept k ((Table.mem_keys_iff _ _).mpr (by simp [hParent])),
      hParent]
  induction before generalizing m with
  | nil => exact hKnown hTraces
  | cons parent before ih =>
      exact ⟨hKnown hTraces.1, ih hTraces.2⟩

------------------------------------------------------------
-- Breadth-First Search
------------------------------------------------------------

/- Of distinct callers, the ones that are not known wait next. -/
theorem foldl_look
    {callers : List Signature}
    (hNodup : callers.Nodup)
    (m : Signature)
    (d : Discovery) :
    callers.foldl (Discovery.look m) d =
      { parents :=
          (callers.filter (!d.parents.contains ·)).foldl
            (fun t caller => t.insert caller (some m)) d.parents
        queue :=
          d.queue ++ callers.filter (!d.parents.contains ·)
        discovered :=
          d.discovered ||
            !(callers.filter
              (!d.parents.contains ·)).isEmpty } := by
  induction callers generalizing d with
  | nil => simp
  | cons caller rest ih =>
      rw [List.nodup_cons] at hNodup
      rw [List.foldl_cons, ih hNodup.2, Discovery.look]
      by_cases hKnown : d.parents.contains caller = true
      · simp [hKnown]
      · have hRest :
            rest.filter
                (!(d.parents.insert caller (some m)).contains ·) =
              rest.filter (!d.parents.contains ·) := by
          apply List.filter_congr
          intro other hOther
          have hNe : other ≠ caller := by
            rintro rfl
            exact hNodup.1 hOther
          simp [Table.contains, Table.get?_insert, hNe]
        simp [hKnown, hRest]

/-
  What holds of a breadth-first search throughout: the methods
  of the index that it has not met have no parent yet, and a
  method that waits is one of the index, from which the parents
  lead back along its path.
-/
structure Searching
    (db : Database)
    (parents : Table Signature (Option Signature))
    (unseen : List Signature)
    (waiting : List (Signature × List Signature)) : Prop where
  unseen_iff :
    ∀ m ∈ db.callers.keys, m ∈ unseen ↔ m ∉ parents.keys
  indexed : ∀ w ∈ waiting, w.1 ∈ db.callers.keys
  traces : ∀ w ∈ waiting, Traces parents w.1 w.2

namespace Searching

variable
  {unseen : List Signature}
  {m : Signature}
  {before : List Signature}
  {waiting : List (Signature × List Signature)}

theorem start
    {source : Signature}
    (hSource : source ∈ db.callers.keys) :
    Searching db (Table.empty.insert source none)
      (db.callers.keys.erase source) [(source, [])] where
  unseen_iff := by
    intro m hm
    rw [mem_erase_keys_iff hm, Table.mem_keys_iff,
      Table.get?_insert]
    by_cases hSame : m = source <;> simp [hSame]
  indexed := by
    intro w hw
    rw [List.mem_singleton.mp hw]
    exact hSource
  traces := by
    intro w hw
    rw [List.mem_singleton.mp hw]
    simp [Traces, Table.get?_insert]

/- The callers that are not known are the fresh ones. -/
theorem filter_callersIn
    (hSearching : Searching db parents unseen waiting)
    (hIndexed : db.Indexed)
    (m : Signature) :
    (db.callersIn m).filter (!parents.contains ·) =
      fresh unseen (db.callersIn m) := by
  rw [fresh, eraseDups_eq_self ((nodup_callersIn db m).filter _)]
  apply List.filter_congr
  intro caller hCaller
  have hIff := hSearching.unseen_iff caller
    (hIndexed.closed m caller hCaller)
  rw [Bool.eq_iff_iff, Bool.not_eq_true', decide_eq_true_iff,
    hIff, ← Table.contains_iff, Bool.not_eq_true]

theorem tail
    {w : Signature × List Signature}
    (hSearching : Searching db parents unseen (w :: waiting)) :
    Searching db parents unseen waiting where
  unseen_iff := hSearching.unseen_iff
  indexed := fun v hv =>
    hSearching.indexed v (List.mem_cons_of_mem _ hv)
  traces := fun v hv =>
    hSearching.traces v (List.mem_cons_of_mem _ hv)

/- The fresh callers of a method wait with its path. -/
theorem expand
    (hSearching :
      Searching db parents unseen ((m, before) :: waiting))
    (hIndexed : db.Indexed) :
    Searching db
      ((fresh unseen (db.callersIn m)).foldl
        (fun t caller => t.insert caller (some m)) parents)
      (without unseen (fresh unseen (db.callersIn m)))
      (waiting ++
        (fresh unseen (db.callersIn m)).map
          (·, m :: before)) where
  unseen_iff := by
    intro k hk
    rw [mem_without, hSearching.unseen_iff k hk,
      Table.mem_keys_iff, Table.mem_keys_iff,
      Table.get?_foldl_insert_keys (fun _ => some m)]
    by_cases hFresh : k ∈ fresh unseen (db.callersIn m) <;>
      simp [hFresh]
  indexed := by
    intro w hw
    rcases List.mem_append.mp hw with hOld | hNew
    · exact hSearching.tail.indexed w hOld
    · rcases List.mem_map.mp hNew with ⟨caller, hCaller, rfl⟩
      exact hIndexed.closed m caller
        ((mem_fresh _ _ _).mp hCaller).1
  traces := by
    have hKept :
        ∀ k ∈ parents.keys,
          ((fresh unseen (db.callersIn m)).foldl
            (fun t caller => t.insert caller (some m))
            parents).get? k = parents.get? k := by
      intro k hk
      rw [Table.get?_foldl_insert_keys (fun _ => some m),
        if_neg]
      intro hFresh
      rcases (mem_fresh _ _ _).mp hFresh with ⟨hCaller, hUnseen⟩
      exact (hSearching.unseen_iff k
        (hIndexed.closed m k hCaller)).mp hUnseen hk
    intro w hw
    rcases List.mem_append.mp hw with hOld | hNew
    · exact (hSearching.tail.traces w hOld).mono hKept
    · rcases List.mem_map.mp hNew with ⟨caller, hCaller, rfl⟩
      refine ⟨?_, ?_⟩
      · rw [Table.get?_foldl_insert_keys (fun _ => some m),
          if_pos hCaller]
      · exact (hSearching.traces _ List.mem_cons_self).mono hKept

end Searching

/- One step of a breadth-first search fails no check. -/
theorem searchTree_cons
    (hSealed : db.isSealed = true)
    (hIndexed : db.Indexed)
    {unseen : List Signature}
    {m : Signature}
    {before : List Signature}
    {waiting : List (Signature × List Signature)}
    (hSearching :
      Searching db parents unseen ((m, before) :: waiting))
    (bound : Nat)
    (paths : List (List Signature))
    (queue : List Signature) :
    db.searchTree (bound + 1) parents paths (m :: queue) =
      if fresh unseen (db.callersIn m) = [] then do
        let path ← climb parents bound [] (some m)
        db.searchTree bound parents (paths ++ [path]) queue
      else
        db.searchTree bound
          ((fresh unseen (db.callersIn m)).foldl
            (fun t caller => t.insert caller (some m)) parents)
          paths (queue ++ fresh unseen (db.callersIn m)) := by
  have hBucket : db.callers.contains m = true :=
    (Table.contains_iff _ _).mpr
      (hSearching.indexed _ List.mem_cons_self)
  rw [searchTree, ensure_of_true hBucket, pure_bind,
    ofOutcome_of_ok (callersOf_eq hSealed m), pure_bind,
    foldl_look (nodup_callersIn db m)]
  simp only [hSearching.filter_callersIn hIndexed m,
    Bool.false_or]
  by_cases hLeaf : fresh unseen (db.callersIn m) = []
  · simp [hLeaf]
  · simp [hLeaf]

/-
  On a sealed database a breadth-first search ends, and finds
  the paths of the breadth-first tree.
-/
theorem searchTree_settles
    (hSealed : db.isSealed = true)
    (hIndexed : db.Indexed)
    {unseen : List Signature}
    {waiting : List (Signature × List Signature)}
    (hSearching : Searching db parents unseen waiting)
    (paths : List (List Signature)) :
    Settles
      (db.searchTree · parents paths (waiting.map Prod.fst))
      (pure (paths ++
        treePathsFrom db.callersIn unseen waiting)) := by
  fun_induction treePathsFrom db.callersIn unseen waiting
    generalizing parents paths with
  | case1 unseen =>
      rw [List.append_nil]
      apply Settles.succ _ (.const _)
      intro bound
      rw [List.map_nil, searchTree]
  | case2 unseen m before waiting found hLeaf =>
      rename_i ih
      have hPath := climb_settles
        (hSearching.traces _ List.mem_cons_self) []
      have hRest := ih hSearching.tail
        (paths ++ [(m :: before).reverse])
      rw [List.append_nil] at hPath
      rw [List.append_assoc, List.singleton_append] at hRest
      have hBoth :
          Settles
            (fun bound => do
              let path ← climb parents bound [] (some m)
              db.searchTree bound parents (paths ++ [path])
                (waiting.map Prod.fst))
            (pure (paths ++ (m :: before).reverse ::
              treePathsFrom db.callersIn unseen waiting)) :=
        hPath.bind hRest
      apply hBoth.succ
      intro bound
      rw [List.map_cons,
        searchTree_cons hSealed hIndexed hSearching,
        if_pos hLeaf]
  | case3 unseen m before waiting found hFound =>
      rename_i ih
      have hQueue :
          waiting.map Prod.fst ++ found =
            (waiting ++ found.map (·, m :: before)).map
              Prod.fst := by
        simp [Function.comp_def]
      apply (ih (hSearching.expand hIndexed) paths).succ
      intro bound
      rw [List.map_cons,
        searchTree_cons hSealed hIndexed hSearching,
        if_neg hFound, hQueue]

------------------------------------------------------------
-- Depth-First Search
------------------------------------------------------------

@[simp] theorem Trail.keep_nil
    (t : Trail) :
    t.keep [] = t := by
  simp [Trail.keep]

@[simp] theorem Trail.keep_keep
    (t : Trail)
    (paths more : List (List Signature)) :
    (t.keep paths).keep more = t.keep (paths ++ more) := by
  simp [Trail.keep]

/- Going back undoes going on; what is found stays. -/
theorem Trail.leave_keep_enter
    {t : Trail}
    {m : Signature}
    (hNew : m ∉ t.onPath)
    (paths : List (List Signature)) :
    ((t.enter m).keep paths).leave m = t.keep paths := by
  simp [Trail.leave, Trail.keep, Trail.enter,
    List.insert_of_not_mem hNew]

theorem Trail.finish_keep_enter
    {t : Trail}
    {m : Signature}
    (hNew : m ∉ t.onPath)
    (paths : List (List Signature))
    (extended : Bool) :
    ((t.enter m).keep paths).finish extended m =
      pure (t.keep
        (if extended then paths
          else paths ++ [t.path ++ [m]])) := by
  have hLast :
      ∀ found, (((t.enter m).keep found).path.getLast? ==
        some m) = true := by
    intro found
    simp [Trail.keep, Trail.enter]
  cases extended with
  | false =>
      have hKept :
          ((t.enter m).keep paths).keep
              [((t.enter m).keep paths).path] =
            (t.enter m).keep (paths ++ [t.path ++ [m]]) :=
        Trail.keep_keep ..
      simp only [Trail.finish, Bool.false_eq_true, if_false]
      rw [hKept, ensure_of_true (hLast _), pure_bind,
        Trail.leave_keep_enter hNew]
  | true =>
      simp only [Trail.finish, if_true]
      rw [ensure_of_true (hLast _), pure_bind,
        Trail.leave_keep_enter hNew]

/-
  If exploring each caller that is not on the path gives the
  paths on from it, the callers together give all of these.
-/
theorem foldlM_explore
    {t : Trail}
    {paths : Signature → List (List Signature)}
    {callers : List Signature}
    (hCallers :
      ∀ caller ∈ callers, caller ∉ t.onPath →
        ∀ found,
          Settles (db.explore · caller (t.keep found))
            (pure (t.keep (found ++ paths caller))))
    (found : List (List Signature))
    (extended : Bool) :
    Settles
      (fun bound => callers.foldlM
        (fun s caller =>
          if caller ∈ s.1.onPath then
            pure s
          else do
            let t ← db.explore bound caller s.1
            return (t, true))
        (t.keep found, extended))
      (pure
        (t.keep (found ++
            (callers.filter (· ∉ t.onPath)).flatMap paths),
          extended ||
            !(callers.filter (· ∉ t.onPath)).isEmpty)) := by
  induction callers generalizing found extended with
  | nil =>
      simp only [List.foldlM_nil, List.filter_nil,
        List.flatMap_nil, List.append_nil, List.isEmpty_nil,
        Bool.not_true, Bool.or_false]
      exact .const _
  | cons caller rest ih =>
      have hRest := ih fun c hc =>
        hCallers c (List.mem_cons_of_mem _ hc)
      have hOnPath : (t.keep found).onPath = t.onPath := rfl
      simp only [List.foldlM_cons, hOnPath]
      by_cases hThere : caller ∈ t.onPath
      · rw [List.filter_cons_of_neg (by simp [hThere])]
        simp only [if_pos hThere, pure_bind]
        exact hRest found extended
      · have hFirst :=
          hCallers caller List.mem_cons_self hThere found
        have hNext := hRest (found ++ paths caller) true
        rw [List.filter_cons_of_pos (by simp [hThere])]
        simp only [if_neg hThere, List.flatMap_cons,
          List.isEmpty_cons, Bool.not_false, Bool.or_true,
          ← List.append_assoc]
        rw [Bool.true_or] at hNext
        exact (hFirst.bind (.const _)).bind hNext

/-
  One step of a depth-first search fails no check: it keeps the
  paths on from the callers, or else the path to the method.
-/
theorem explore_step
    (hSealed : db.isSealed = true)
    {m : Signature}
    {t : Trail}
    (hBucket : m ∈ db.callers.keys)
    (hNew : m ∉ t.onPath)
    {paths : Signature → List (List Signature)}
    (hCallers :
      ∀ caller ∈ db.callersIn m, caller ∉ (t.enter m).onPath →
        ∀ found,
          Settles
            (db.explore · caller ((t.enter m).keep found))
            (pure
              ((t.enter m).keep (found ++ paths caller)))) :
    Settles (db.explore · m t)
      (pure (t.keep
        (if (db.callersIn m).filter
            (· ∉ (t.enter m).onPath) = [] then
          [t.path ++ [m]]
        else
          ((db.callersIn m).filter
            (· ∉ (t.enter m).onPath)).flatMap paths))) := by
  have hLoop := foldlM_explore hCallers [] false
  rw [Trail.keep_nil, List.nil_append, Bool.false_or] at hLoop
  have hBody :
      ∀ bound, db.explore (bound + 1) m t = (do
        let s ← (db.callersIn m).foldlM
          (fun s caller =>
            if caller ∈ s.1.onPath then
              pure s
            else do
              let t ← db.explore bound caller s.1
              return (t, true))
          (t.enter m, false)
        s.1.finish s.2 m) := by
    intro bound
    rw [explore,
      ensure_of_true ((Table.contains_iff _ _).mpr hBucket),
      pure_bind, ofOutcome_of_ok (callersOf_eq hSealed m),
      pure_bind]
  refine .succ hBody (hLoop.bind ?_)
  simp only [Trail.finish_keep_enter hNew]
  generalize (db.callersIn m).filter
    (· ∉ (t.enter m).onPath) = fresh
  by_cases hLeaf : fresh = []
  · simp only [hLeaf, List.isEmpty_nil, Bool.not_true,
      Bool.false_eq_true, if_false, if_true, List.flatMap_nil,
      List.nil_append]
    exact .const _
  · simp only [hLeaf, List.isEmpty_eq_false_iff.mpr hLeaf,
      Bool.not_false, if_true, if_false]
    exact .const _

/-
  On a sealed database a depth-first search ends. It keeps the
  maximal paths on from a method through the methods that are
  not on the path, and goes back to where it was.
-/
theorem explore_settles
    (hSealed : db.isSealed = true)
    (hIndexed : db.Indexed)
    {unseen : List Signature}
    (hNodup : unseen.Nodup)
    {m : Signature}
    {t : Trail}
    (hBucket : m ∈ db.callers.keys)
    (hNew : m ∉ t.onPath)
    (hUnseen :
      ∀ k ∈ db.callers.keys,
        k ∈ unseen ↔ k ≠ m ∧ k ∉ t.onPath) :
    Settles (db.explore · m t)
      (pure (t.keep
        ((maximalPathsFrom db.callersIn unseen m).map
          (t.path ++ ·)))) := by
  -- each step on takes a method from the unseen ones
  induction hSize : unseen.length using Nat.strongRecOn
    generalizing unseen m t with
  | ind size ih =>
      have hOnPath :
          ∀ k, k ∉ (t.enter m).onPath ↔
            k ≠ m ∧ k ∉ t.onPath := by
        intro k
        simp [Trail.enter]
      have hFilter :
          (db.callersIn m).filter (· ∉ (t.enter m).onPath) =
            (db.callersIn m).filter (· ∈ unseen) := by
        apply List.filter_congr
        intro caller hCaller
        rw [decide_eq_decide, hOnPath,
          hUnseen caller (hIndexed.closed m caller hCaller)]
      have hCallers :
          ∀ caller ∈ db.callersIn m,
            caller ∉ (t.enter m).onPath →
              ∀ found,
                Settles
                  (db.explore · caller
                    ((t.enter m).keep found))
                  (pure ((t.enter m).keep (found ++
                    (maximalPathsFrom db.callersIn
                      (unseen.erase caller) caller).map
                        ((t.enter m).path ++ ·)))) := by
        intro caller hCaller hFree found
        have hIndex := hIndexed.closed m caller hCaller
        have hMember : caller ∈ unseen :=
          (hUnseen caller hIndex).mpr
            ((hOnPath caller).mp hFree)
        have hFewer : (unseen.erase caller).length < size := by
          rw [List.length_erase_of_mem hMember, ← hSize]
          have := List.length_pos_of_mem hMember
          omega
        have hLeft :
            ∀ k ∈ db.callers.keys, k ∈ unseen.erase caller ↔
              k ≠ caller ∧
                k ∉ ((t.enter m).keep found).onPath := by
          intro k hk
          rw [hNodup.mem_erase_iff, hUnseen k hk, ← hOnPath]
          rfl
        have hPaths := ih _ hFewer (hNodup.erase caller)
          (t := (t.enter m).keep found) hIndex hFree hLeft rfl
        rw [Trail.keep_keep] at hPaths
        exact hPaths
      have hStep :=
        explore_step hSealed hBucket hNew hCallers
      rw [hFilter] at hStep
      by_cases hLeaf :
          (db.callersIn m).filter (· ∈ unseen) = []
      · rw [if_pos hLeaf] at hStep
        rw [maximalPathsFrom]
        simpa [hLeaf] using hStep
      · rw [if_neg hLeaf] at hStep
        rw [maximalPathsFrom_eq_flatMap hLeaf]
        simpa [List.map_flatMap, Trail.enter,
          Function.comp_def] using hStep

------------------------------------------------------------
-- Chains
------------------------------------------------------------

/- Along the paths of a search every chain is given. -/
theorem checkedChains_settles
    (hSealed : db.isSealed = true)
    {source : Signature}
    {search : Nat → Checked (List (List Signature))}
    {paths : List (List Signature)}
    (hSearch :
      source ∈ db.facts.keys → Settles search (pure paths))
    (hPaths :
      ∀ path ∈ paths, IsPath db.callersIn source path) :
    Settles (fun bound => db.checkedChains (search bound) source)
      (pure (db.chainsOfPaths source paths)) := by
  have hCheck : db.checkSealed = .ok () := by
    simp [checkSealed, hSealed]
  simp only [checkedChains, ofOutcome_of_ok hCheck, pure_bind,
    chainsOfPaths]
  by_cases hFacts : source ∈ db.facts.keys
  · have hAlong :
        ∀ path ∈ paths,
          db.checkedChainsAlong (db.exceptionsIn source) path =
            pure ((db.exceptionsIn source).map fun exc =>
              db.chainAlong exc source path.tail) := by
      intro path hPath
      have hSome : (!path.isEmpty) = true := by
        rcases (hPaths path hPath).eq_cons with ⟨rest, rfl⟩
        rfl
      rw [checkedChainsAlong, ensure_of_true hSome, pure_bind]
      exact ofOutcome_of_ok
        (chainsAlong_eq hSealed _ (hPaths path hPath))
    simp only [(Table.contains_iff _ _).mpr hFacts, if_true,
      ofOutcome_of_ok (exceptionsOf_eq hSealed source),
      pure_bind]
    apply (hSearch hFacts).bind
    rw [mapM_eq_pure hAlong, pure_bind, List.flatMap_def]
    exact .const _
  · simp only [mt (Table.contains_iff _ _).mp hFacts,
      exceptionsIn_of_not_mem hFacts]
    rw [List.flatMap_eq_nil_iff.mpr fun _ _ => List.map_nil]
    exact .const _

theorem checkedChainsFrom_settles
    (hSealed : db.isSealed = true)
    (hIndexed : db.Indexed)
    (source : Signature) :
    Settles (db.checkedChainsFrom · source)
      (pure (db.chainsOfPaths source
        (treePaths db.callersIn db.callers.keys source))) := by
  apply checkedChains_settles hSealed
  · intro hFacts
    have hSource := hIndexed.facts_mem hSealed source hFacts
    exact searchTree_settles hSealed hIndexed
      (Searching.start hSource) []
  · intro path hPath
    exact isPath_of_mem_treePaths db.callers.nodup hPath

theorem checkedAllChainsFrom_settles
    (hSealed : db.isSealed = true)
    (hIndexed : db.Indexed)
    (source : Signature) :
    Settles (db.checkedAllChainsFrom · source)
      (pure (db.chainsOfPaths source
        (maximalPaths db.callersIn db.callers.keys
          source))) := by
  apply checkedChains_settles hSealed
  · intro hFacts
    have hSource := hIndexed.facts_mem hSealed source hFacts
    have hSearch := explore_settles (t := ⟨[], [], []⟩) hSealed
      hIndexed (List.Nodup.erase source db.callers.nodup) hSource
      List.not_mem_nil (by
        intro k hk
        refine (mem_erase_keys_iff hk).trans ?_
        simp)
    simp only [map_eq_pure_bind]
    apply hSearch.bind
    simp only [Trail.keep, List.nil_append, List.map_id']
    exact .const _
  · intro path hPath
    exact isPath_of_mem_maximalPaths db.callers.nodup hPath

/-
  Whatever was done to a database, once it is sealed both ways
  to ask for the chains of a method end, for every method, and
  fail none of their checks: all methods that are met have a
  place in the index and a parent, every path that is left ends
  where it should, no path is empty, and every call is in the
  index. The chains are those that `chainsFrom` and
  `allChainsFrom` give.
-/
theorem sealed_queries_succeed
    {settings : Settings}
    {steps : List Step}
    (hRun : run settings steps = db)
    (hSealed : db.isSealed = true)
    (source : Signature) :
    ∃ tree all,
      Settles
        (fun bound => (db.checkedChainsFrom bound source).run)
        (some (.ok tree)) ∧
      db.chainsFrom source = .ok tree ∧
      Settles
        (fun bound => (db.checkedAllChainsFrom bound source).run)
        (some (.ok all)) ∧
      db.allChainsFrom source = .ok all := by
  have hIndexed : db.Indexed := by
    rw [← hRun]
    exact indexed_run settings steps
  exact ⟨_, _, checkedChainsFrom_settles hSealed hIndexed source,
    chainsFrom_eq hSealed source,
    checkedAllChainsFrom_settles hSealed hIndexed source,
    allChainsFrom_eq hSealed source⟩

/-
  Facts under a foreign signature, and calls that come after the
  call graph is made.
-/
def foreignThenChanged : List Step := [
  .add (.facts {
    signature := sampleMethod "source"
    thrown := ["E"] }),
  .assign (sampleMethod "foreign") {
    signature := sampleMethod "source"
    calls := ["source", "unknown"].map sampleMethod },
  .build,
  .change (sampleMethod "source")
    (·.addCall (sampleMethod "foreign") ["E"]),
  .change (sampleMethod "foreign")
    (·.addCall (sampleMethod "source") ["E"])]

theorem sealed_queries_succeed_foreignThenChanged :
    (run {} foreignThenChanged).isSealed = true ∧
      ∃ tree,
        Settles
          (fun bound =>
            ((run {} foreignThenChanged).checkedChainsFrom bound
              (sampleMethod "foreign")).run)
          (some (.ok tree)) := by
  have hSealed : (run {} foreignThenChanged).isSealed = true :=
    rfl
  rcases sealed_queries_succeed rfl hSealed
      (sampleMethod "foreign") with
    ⟨tree, _, hTree, -⟩
  exact ⟨hSealed, tree, hTree⟩

end Database

end Uncaught
