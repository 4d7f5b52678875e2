import Uncaught.Proofs.Java.Outline

/-
  The sites of a body by their places. A site is found at every
  node that says something about exceptions and is not inside a
  nested type; around it the types of those try statements are
  caught that have it in their block or their resources, with
  no lambda in between. A walk with a stack reads the same
  statements.

  Key definitions include:
    * `Java.lineage`
    * `Java.handlersAt`
    * `Java.SiteAt`
    * `Java.walk`
    * `Java.Form.spans`

  Main declarations:
    * `Java.Tree.sites_eq`
    * `Java.Tree.exists_found`
    * `Java.succeeds_statementsAtAll`
    * `Java.walk_body`
    * `Java.statements_exact`
-/

namespace Uncaught

namespace Java

------------------------------------------------------------
-- Places
------------------------------------------------------------

/-
  The nodes on the way down from a node: each number of a place
  says which child comes next.
-/
def Tree.lineage
    (t : Tree) : List Nat → Option (List Tree)
  | [] => some [t]
  | i :: place => do
      let child ← t.children[i]?
      let below ← child.lineage place
      return t :: below

/- The nodes on the way down to a place in a body. -/
def lineage
    (body : List Tree) : List Nat → Option (List Tree)
  | [] => none
  | i :: place => do
      let t ← body[i]?
      t.lineage place

/-
  Whether a node is a try statement that catches around the
  last of the nodes below it: the next of them is not a clause,
  and none of them is a lambda.
-/
def guards
    (t : Tree)
    (below : List Tree) : Bool :=
  t.form == .trying
    && below.head?.any (!·.isClause)
    && below.all (·.form != .lambda)

/-
  The types caught around the last of some nodes on a way down,
  the ones of the outermost try statement first.
-/
def handlersAt : List Tree → List Span
  | [] => []
  | t :: below =>
      (if guards t below then caughtTypes t.children else [])
        ++ handlersAt below

/-
  A site that stands at a place of a body: its node is no part
  of a nested type.
-/
def SiteAt
    (body : List Tree)
    (place : List Nat)
    (site : Site) : Prop :=
  ∃ nodes node, lineage body place = some nodes ∧
    nodes.getLast? = some node ∧
    (∀ t ∈ nodes, t.form ≠ .nested) ∧
    node.form.isSite = true ∧
    site = ⟨node.form, node.span, handlersAt nodes⟩

/-
  The order in which sites are found: a node before the nodes
  inside it, and these from the last to the first.
-/
def Precedes
    (first second : List Nat) : Prop :=
  List.Lex (· > ·) first second

------------------------------------------------------------
-- Walk With A Stack
------------------------------------------------------------

/-
  Put texts of caught types in the place of those that a
  statement has.
-/
def withHandlers
    (handlers : List String)
    (s : Statement) : Statement :=
  { s with parts := s.parts.map fun parts =>
      { parts with
        handlers := parts.handlers.map fun _ => handlers } }

/- The statements of one node, given the types caught around it. -/
def statementsOf
    (src : Source)
    (owner : String)
    (t : Tree)
    (handlers : List String) :
    Except TextError (List Statement) := do
  let statements ← statementsAt src owner ⟨t.form, t.span, []⟩
  return statements.map (withHandlers handlers)

/-
  The children of a node on a stack, the last one on top, with
  the types caught around each. Nested types are left out.
-/
def stacked
    (children : List Tree)
    (handlers : Tree → List String) :
    List (Tree × List String) :=
  (children.reverse.filter (·.form != .nested)).map
    fun c => (c, handlers c)

mutual

/- The number of nodes of a tree. -/
def Tree.size : Tree → Nat
  | .node _ _ children => Tree.sizeAmong children + 1

/- The number of nodes of some trees. -/
def Tree.sizeAmong : List Tree → Nat
  | [] => 0
  | t :: ts => t.size + Tree.sizeAmong ts

end

/- The number of nodes of the trees on a stack. -/
def stackSize
    (stack : List (Tree × List String)) : Nat :=
  Tree.sizeAmong (stack.map Prod.fst)

theorem Tree.sizeAmong_append
    (first second : List Tree) :
    Tree.sizeAmong (first ++ second) =
      Tree.sizeAmong first + Tree.sizeAmong second := by
  induction first with
  | nil => simp [Tree.sizeAmong]
  | cons t first ih =>
      rw [List.cons_append, Tree.sizeAmong, Tree.sizeAmong, ih]
      omega

theorem Tree.sizeAmong_reverse
    (ts : List Tree) :
    Tree.sizeAmong ts.reverse = Tree.sizeAmong ts := by
  induction ts with
  | nil => rfl
  | cons t ts ih =>
      rw [List.reverse_cons, Tree.sizeAmong_append, ih]
      simp only [Tree.sizeAmong]
      omega

theorem Tree.sizeAmong_filter_le
    (p : Tree → Bool)
    (ts : List Tree) :
    Tree.sizeAmong (ts.filter p) ≤ Tree.sizeAmong ts := by
  induction ts with
  | nil => simp
  | cons t ts ih =>
      rw [List.filter_cons]
      split <;> simp only [Tree.sizeAmong] <;> omega

/- A stack gets smaller if a node makes way for its children. -/
theorem stackSize_stacked_lt
    (t : Tree)
    (given : List String)
    (handlers : Tree → List String)
    (stack : List (Tree × List String)) :
    stackSize (stacked t.children handlers ++ stack) <
      stackSize ((t, given) :: stack) := by
  have hSize : t.size = Tree.sizeAmong t.children + 1 := by
    cases t
    rfl
  have hChildren :
      (stacked t.children handlers).map Prod.fst =
        t.children.reverse.filter (·.form != .nested) := by
    simp [stacked, Function.comp_def]
  have hFewer := Tree.sizeAmong_filter_le
    (·.form != .nested) t.children.reverse
  rw [Tree.sizeAmong_reverse] at hFewer
  simp only [stackSize, List.map_append, List.map_cons,
    Tree.sizeAmong_append, Tree.sizeAmong, hChildren]
  omega

/-
  Read the statements of the nodes on a stack, the top one
  first. The texts of the types that a try statement catches
  are read with the statement.
-/
def walk
    (src : Source)
    (owner : String)
    (statements : List Statement) :
    List (Tree × List String) →
      Except TextError (List Statement)
  | [] => .ok statements
  | (t, handlers) :: stack =>
      if t.form = .trying then do
        let caught ← typesAt src (caughtTypes t.children)
        walk src owner statements
          (stacked t.children (fun c =>
            if c.isClause then handlers
            else handlers ++ caught) ++ stack)
      else do
        let inner := if t.form = .lambda then [] else handlers
        let found ← statementsOf src owner t handlers
        walk src owner (statements ++ found)
          (stacked t.children (fun _ => inner) ++ stack)
termination_by stack => stackSize stack
decreasing_by
  all_goals exact stackSize_stacked_lt t handlers _ stack

------------------------------------------------------------
-- One Node
------------------------------------------------------------

/- Induction on a node: its children have what is shown. -/
@[elab_as_elim]
theorem Tree.induction
    {motive : Tree → Prop}
    (node :
      ∀ t : Tree, (∀ c ∈ t.children, motive c) → motive t) :
    ∀ t, motive t
  | .node form span children =>
      node (.node form span children) fun c _child =>
        Tree.induction node c
termination_by t => sizeOf t
decreasing_by
  have hSmaller : sizeOf c < sizeOf children :=
    List.sizeOf_lt_of_mem _child
  simp only [Tree.node.sizeOf_spec]
  omega

/- The types caught around a child of a node. -/
def Tree.around
    (t : Tree)
    (handlers : List Span)
    (child : Tree) : List Span :=
  match t.form with
  | .trying =>
      if child.isClause then handlers
      else handlers ++ caughtTypes t.children
  | .lambda => []
  | _ => handlers

theorem Tree.around_of_trying
    {t : Tree}
    (hForm : t.form = .trying)
    (handlers : List Span)
    (child : Tree) :
    t.around handlers child =
      if child.isClause then handlers
      else handlers ++ caughtTypes t.children := by
  simp only [Tree.around, hForm]

theorem Tree.around_of_ne_trying
    {t : Tree}
    (hForm : t.form ≠ .trying)
    (handlers : List Span)
    (child : Tree) :
    t.around handlers child =
      if t.form = .lambda then [] else handlers := by
  unfold Tree.around
  cases hCase : t.form with
  | trying => exact absurd hCase hForm
  | _ => simp

/- The node itself as a site, if it is one. -/
def Tree.ownSites
    (t : Tree)
    (handlers : List Span) : List Site :=
  if t.form.isSite then [⟨t.form, t.span, handlers⟩] else []

theorem sitesAmong_eq
    (outer inner : List Span)
    (ts : List Tree) :
    Tree.sitesAmong outer inner ts =
      ts.reverse.flatMap fun t =>
        t.sites (if t.isClause then outer else inner) := by
  induction ts with
  | nil => simp [Tree.sitesAmong]
  | cons t ts ih => simp [Tree.sitesAmong, ih]

/-
  The sites of a node are the node itself, if it is one, and
  the sites of its children from the last to the first.
-/
theorem Tree.sites_eq
    (t : Tree)
    (handlers : List Span)
    (hForm : t.form ≠ .nested) :
    t.sites handlers =
      t.ownSites handlers ++
        t.children.reverse.flatMap fun c =>
          c.sites (t.around handlers c) := by
  rcases t with ⟨form, span, children⟩
  cases form with
  | nested => exact absurd rfl hForm
  | _ =>
      simp [Tree.sites, sitesAmong_eq, Tree.ownSites,
        Tree.around, Tree.form, Tree.span, Tree.children,
        Form.isSite]

theorem Tree.mem_sites_of_child
    {t c : Tree}
    (hForm : t.form ≠ .nested)
    (hChild : c ∈ t.children)
    {handlers : List Span}
    {site : Site}
    (hSite : site ∈ c.sites (t.around handlers c)) :
    site ∈ t.sites handlers := by
  rw [t.sites_eq handlers hForm]
  apply List.mem_append_right
  exact List.mem_flatMap.mpr
    ⟨c, List.mem_reverse.mpr hChild, hSite⟩

theorem Tree.sites_of_nested
    {t : Tree}
    (handlers : List Span)
    (hForm : t.form = .nested) :
    t.sites handlers = [] := by
  rcases t with ⟨form, span, children⟩
  cases hForm
  rw [Tree.sites]

------------------------------------------------------------
-- Handlers On The Way Down
------------------------------------------------------------

/-
  The types caught around the last of some nodes on a way down,
  if others are caught around the first one. Inside of a lambda
  these do not count.
-/
def carried
    (handlers : List Span)
    (nodes : List Tree) : List Span :=
  if nodes.all (·.form != .lambda) then
    handlers ++ handlersAt nodes
  else
    handlersAt nodes

theorem carried_nil
    (nodes : List Tree) :
    carried [] nodes = handlersAt nodes := by
  simp [carried]

/- Around a site is caught what it is given. -/
theorem carried_singleton
    (handlers : List Span)
    {t : Tree}
    (hSite : t.form.isSite = true) :
    carried handlers [t] = handlers := by
  have hForm : t.form ≠ .lambda := by
    intro hLambda
    rw [hLambda] at hSite
    cases hSite
  simp [carried, handlersAt, guards, hForm]

/- One step down leads to what is caught around a child. -/
theorem carried_cons
    (handlers : List Span)
    (t child : Tree)
    (below : List Tree) :
    carried handlers (t :: child :: below) =
      carried (t.around handlers child) (child :: below) := by
  rw [carried, carried, handlersAt, guards, List.all_cons,
    List.head?_cons, Option.any_some]
  generalize handlersAt (child :: below) = inner
  generalize (child :: below).all (·.form != .lambda) = clear
  by_cases hTrying : t.form = .trying
  · rw [Tree.around_of_trying hTrying]
    cases clear <;> cases child.isClause <;> simp [hTrying]
  · rw [Tree.around_of_ne_trying hTrying]
    by_cases hLambda : t.form = .lambda <;>
      cases clear <;> simp [hTrying, hLambda]

------------------------------------------------------------
-- Sites By Their Places
------------------------------------------------------------

/-
  A site at a place below a node, around which some types are
  caught.
-/
def Tree.SiteBelow
    (handlers : List Span)
    (t : Tree)
    (place : List Nat)
    (site : Site) : Prop :=
  ∃ nodes node, t.lineage place = some nodes ∧
    nodes.getLast? = some node ∧
    (∀ t ∈ nodes, t.form ≠ .nested) ∧
    node.form.isSite = true ∧
    site = ⟨node.form, node.span, carried handlers nodes⟩

theorem Tree.lineage_cons_iff
    {t : Tree}
    {i : Nat}
    {place : List Nat}
    {nodes : List Tree} :
    t.lineage (i :: place) = some nodes ↔
      ∃ child below, t.children[i]? = some child ∧
        child.lineage place = some below ∧
          nodes = t :: below := by
  simp only [Tree.lineage, Option.bind_eq_bind,
    Option.bind_eq_some_iff, Option.pure_def, Option.some.injEq]
  constructor
  · rintro ⟨child, hChild, below, hBelow, rfl⟩
    exact ⟨child, below, hChild, hBelow, rfl⟩
  · rintro ⟨child, below, hChild, hBelow, rfl⟩
    exact ⟨child, hChild, below, hBelow, rfl⟩

/- A way down begins with the node itself. -/
theorem Tree.lineage_eq_cons
    {t : Tree}
    {place : List Nat}
    {nodes : List Tree}
    (hNodes : t.lineage place = some nodes) :
    ∃ below, nodes = t :: below := by
  cases place with
  | nil =>
      cases hNodes
      exact ⟨[], rfl⟩
  | cons i place =>
      rcases lineage_cons_iff.mp hNodes with
        ⟨child, below, -, -, hCons⟩
      exact ⟨below, hCons⟩

theorem Tree.siteBelow_nil_iff
    (handlers : List Span)
    (t : Tree)
    (site : Site) :
    t.SiteBelow handlers [] site ↔
      t.form ≠ .nested ∧ site ∈ t.ownSites handlers := by
  constructor
  · rintro ⟨nodes, node, hNodes, hLast, hOutside, hSite, rfl⟩
    cases hNodes
    have hNode : t = node := Option.some.inj hLast
    subst hNode
    rw [carried_singleton handlers hSite, Tree.ownSites,
      if_pos hSite]
    exact ⟨hOutside _ List.mem_cons_self, List.mem_cons_self⟩
  · rintro ⟨hOutside, hOwn⟩
    by_cases hSite : t.form.isSite = true
    · rw [Tree.ownSites, if_pos hSite,
        List.mem_singleton] at hOwn
      refine ⟨[t], t, rfl, rfl, ?_, hSite, ?_⟩
      · simpa using hOutside
      · rw [hOwn, carried_singleton handlers hSite]
    · rw [Tree.ownSites, if_neg hSite] at hOwn
      cases hOwn

/- A site inside of a node is one of a child. -/
theorem Tree.siteBelow_cons_iff
    (handlers : List Span)
    (t : Tree)
    (i : Nat)
    (place : List Nat)
    (site : Site) :
    t.SiteBelow handlers (i :: place) site ↔
      t.form ≠ .nested ∧
        ∃ child, t.children[i]? = some child ∧
          child.SiteBelow (t.around handlers child) place
            site := by
  constructor
  · rintro ⟨nodes, node, hNodes, hLast, hOutside, hSite, rfl⟩
    rcases lineage_cons_iff.mp hNodes with
      ⟨child, below, hChild, hBelow, rfl⟩
    rcases child.lineage_eq_cons hBelow with ⟨rest, rfl⟩
    refine ⟨hOutside t List.mem_cons_self, child, hChild,
      child :: rest, node, hBelow, ?_, ?_, hSite, ?_⟩
    · rw [← hLast, List.getLast?_cons_cons]
    · intro u hu
      exact hOutside u (List.mem_cons_of_mem _ hu)
    · rw [carried_cons]
  · rintro ⟨hForm, child, hChild, nodes, node, hNodes, hLast,
      hOutside, hSite, rfl⟩
    rcases child.lineage_eq_cons hNodes with ⟨rest, rfl⟩
    refine ⟨t :: child :: rest, node, ?_, ?_, ?_, hSite, ?_⟩
    · exact lineage_cons_iff.mpr
        ⟨child, _, hChild, hNodes, rfl⟩
    · rw [List.getLast?_cons_cons, hLast]
    · intro u hu
      rcases List.mem_cons.mp hu with rfl | hBelow
      · exact hForm
      · exact hOutside u hBelow
    · rw [carried_cons]

/-
  The sites of some nodes by their places, given those of each
  node: from the last node to the first.
-/
def listing
    (found : Tree → List (List Nat × Site))
    (ts : List Tree) : List (List Nat × Site) :=
  ts.zipIdx.reverse.flatMap fun e =>
    (found e.1).map fun f => (e.2 :: f.1, f.2)

theorem map_snd_listing
    (found : Tree → List (List Nat × Site))
    (ts : List Tree) :
    (listing found ts).map Prod.snd =
      ts.reverse.flatMap fun t => (found t).map Prod.snd := by
  have hReverse :
      ts.reverse = ts.zipIdx.reverse.map Prod.fst := by
    rw [List.map_reverse, List.zipIdx_map_fst]
  rw [listing, List.map_flatMap, hReverse, List.flatMap_map]
  simp [Function.comp_def]

theorem mem_listing_iff
    (found : Tree → List (List Nat × Site))
    (ts : List Tree)
    (place : List Nat)
    (site : Site) :
    (place, site) ∈ listing found ts ↔
      ∃ i rest t, place = i :: rest ∧ ts[i]? = some t ∧
        (rest, site) ∈ found t := by
  unfold listing
  simp only [List.mem_flatMap, List.mem_reverse, List.mem_map,
    Prod.exists, List.mem_zipIdx_iff_getElem?, Prod.mk.injEq]
  constructor
  · rintro ⟨t, i, hAt, rest, s, hFound, rfl, rfl⟩
    exact ⟨i, rest, t, rfl, hAt, hFound⟩
  · rintro ⟨i, rest, t, rfl, hAt, hFound⟩
    exact ⟨t, i, hAt, rest, site, hFound, rfl, rfl⟩

theorem pairwise_listing
    {found : Tree → List (List Nat × Site)}
    {ts : List Tree}
    (hFound :
      ∀ t ∈ ts, (found t).Pairwise fun a b =>
        Precedes a.1 b.1) :
    (listing found ts).Pairwise fun a b =>
      Precedes a.1 b.1 := by
  have hIndices :
      ts.zipIdx.Pairwise fun a b => a.2 < b.2 := by
    rw [← List.pairwise_map (f := Prod.snd) (R := (· < ·)),
      List.zipIdx_map_snd]
    exact List.pairwise_lt_range' ..
  unfold listing
  rw [List.pairwise_flatMap]
  constructor
  · intro e he
    rw [List.pairwise_map]
    have hMember : e.1 ∈ ts :=
      List.mem_of_getElem?
        (List.mem_zipIdx_iff_getElem?.mp (List.mem_reverse.mp he))
    exact (hFound e.1 hMember).imp .cons
  · rw [List.pairwise_reverse]
    apply hIndices.imp
    intro e d hLater x hx y hy
    rcases List.mem_map.mp hx with ⟨f, -, rfl⟩
    rcases List.mem_map.mp hy with ⟨g, -, rfl⟩
    exact .rel hLater

/-
  A list of the sites of a node by their places: all of them
  are there, each at one place, in order.
-/
structure Tree.Found
    (handlers : List Span)
    (t : Tree)
    (found : List (List Nat × Site)) : Prop where
  sites : t.sites handlers = found.map Prod.snd
  order : found.Pairwise fun a b => Precedes a.1 b.1
  mem_iff :
    ∀ place site, (place, site) ∈ found ↔
      t.SiteBelow handlers place site

/- Inside of a nested type there is no site. -/
theorem Tree.found_of_nested
    {t : Tree}
    (hForm : t.form = .nested)
    (handlers : List Span) :
    t.Found handlers [] where
  sites := t.sites_of_nested handlers hForm
  order := .nil
  mem_iff := by
    intro place site
    refine iff_of_false List.not_mem_nil ?_
    cases place with
    | nil =>
        rw [siteBelow_nil_iff]
        exact fun h => h.1 hForm
    | cons i place =>
        rw [siteBelow_cons_iff]
        exact fun h => h.1 hForm

/- The node comes first, then what is found below. -/
theorem Tree.Found.of_children
    {t : Tree}
    (hForm : t.form ≠ .nested)
    {handlers : List Span}
    {found : Tree → List (List Nat × Site)}
    (hFound :
      ∀ c ∈ t.children,
        c.Found (t.around handlers c) (found c)) :
    t.Found handlers
      ((t.ownSites handlers).map ([], ·) ++
        listing found t.children) where
  sites := by
    rw [t.sites_eq handlers hForm, List.map_append,
      map_snd_listing]
    congr 1
    · simp [Function.comp_def]
    · apply List.flatMap_congr
      intro c hc
      exact (hFound c (List.mem_reverse.mp hc)).sites
  order := by
    rw [List.pairwise_append]
    refine ⟨?_, pairwise_listing fun c hc => (hFound c hc).order,
      ?_⟩
    · by_cases hSite : t.form.isSite = true <;>
        simp [Tree.ownSites, hSite]
    · intro x hx y hy
      rcases List.mem_map.mp hx with ⟨s, -, rfl⟩
      rcases (mem_listing_iff _ _ y.1 y.2).mp hy with
        ⟨i, rest, c, hPlace, -⟩
      rw [hPlace]
      exact .nil
  mem_iff := by
    intro place site
    rw [List.mem_append, mem_listing_iff]
    cases place with
    | nil =>
        rw [siteBelow_nil_iff]
        simp [hForm]
    | cons i place =>
        rw [siteBelow_cons_iff]
        constructor
        · rintro (hOwn | ⟨j, rest, c, hPlace, hAt, hMem⟩)
          · rcases List.mem_map.mp hOwn with ⟨s, -, hPlace⟩
            cases hPlace
          · cases hPlace
            have hChild := List.mem_of_getElem? hAt
            exact ⟨hForm, c, hAt,
              ((hFound c hChild).mem_iff _ _).mp hMem⟩
        · rintro ⟨-, c, hAt, hBelow⟩
          have hChild := List.mem_of_getElem? hAt
          exact .inr ⟨i, place, c, rfl, hAt,
            ((hFound c hChild).mem_iff _ _).mpr hBelow⟩

/- Every node has a list of its sites by their places. -/
theorem Tree.exists_found
    (t : Tree) :
    ∀ handlers, ∃ found, t.Found handlers found := by
  induction t using Tree.induction with
  | node t ih =>
      intro handlers
      by_cases hForm : t.form = .nested
      · exact ⟨[], t.found_of_nested hForm handlers⟩
      · choose! found hFound using ih
        exact ⟨_, .of_children hForm fun c hc =>
          hFound c hc (t.around handlers c)⟩

theorem siteAt_cons_iff
    (body : List Tree)
    (i : Nat)
    (place : List Nat)
    (site : Site) :
    SiteAt body (i :: place) site ↔
      ∃ t, body[i]? = some t ∧ t.SiteBelow [] place site := by
  simp only [SiteAt, Tree.SiteBelow, lineage, carried_nil,
    Option.bind_eq_bind, Option.bind_eq_some_iff]
  constructor
  · rintro ⟨nodes, node, ⟨t, hAt, hNodes⟩, hSite⟩
    exact ⟨t, hAt, nodes, node, hNodes, hSite⟩
  · rintro ⟨t, hAt, nodes, node, hNodes, hSite⟩
    exact ⟨nodes, node, ⟨t, hAt, hNodes⟩, hSite⟩

/- Every body has a list of its sites by their places. -/
theorem exists_found_body
    (body : List Tree) :
    ∃ found : List (List Nat × Site),
      sitesOf body = found.map Prod.snd ∧
      (found.Pairwise fun a b => Precedes a.1 b.1) ∧
      ∀ place site, (place, site) ∈ found ↔
        SiteAt body place site := by
  choose found hFound using Tree.exists_found
  refine ⟨listing (found · []) body, ?_, ?_, ?_⟩
  · rw [sitesOf, sitesAmong_eq, map_snd_listing]
    apply List.flatMap_congr
    intro t _
    rw [ite_self, (hFound t []).sites]
  · apply pairwise_listing
    intro t _
    exact (hFound t []).order
  · intro place site
    rw [mem_listing_iff]
    cases place with
    | nil => simp [SiteAt, lineage]
    | cons i place =>
        rw [siteAt_cons_iff]
        constructor
        · rintro ⟨j, rest, t, hPlace, hAt, hMem⟩
          cases hPlace
          exact ⟨t, hAt, ((hFound t []).mem_iff _ _).mp hMem⟩
        · rintro ⟨t, hAt, hBelow⟩
          exact ⟨i, place, t, rfl, hAt,
            ((hFound t []).mem_iff _ _).mpr hBelow⟩

/-
  A try statement with a call in its block, one in a lambda and
  one in its clause: only the first is guarded.
-/
example :
    sitesOf [.node .trying ⟨0, 9⟩ [
        .node (.call none ⟨1, 2⟩ 0) ⟨1, 2⟩ [],
        .node .lambda ⟨2, 4⟩ [
          .node (.call none ⟨3, 4⟩ 0) ⟨3, 4⟩ []],
        .node .catching ⟨5, 9⟩ [
          .node (.caught [⟨6, 7⟩] ⟨7, 8⟩) ⟨6, 8⟩ [],
          .node (.call none ⟨8, 9⟩ 0) ⟨8, 9⟩ []]]] =
      [⟨.call none ⟨8, 9⟩ 0, ⟨8, 9⟩, []⟩,
        ⟨.caught [⟨6, 7⟩] ⟨7, 8⟩, ⟨6, 8⟩, []⟩,
        ⟨.call none ⟨3, 4⟩ 0, ⟨3, 4⟩, []⟩,
        ⟨.call none ⟨1, 2⟩ 0, ⟨1, 2⟩, [⟨6, 7⟩]⟩] := by
  decide

------------------------------------------------------------
-- Statements
------------------------------------------------------------

variable {src : Source} {owner : String}

/- The statements of some sites, site after site. -/
def statementsAtAll
    (src : Source)
    (owner : String)
    (sites : List Site) : Except TextError (List Statement) :=
  List.flatten <$> sites.mapM (statementsAt src owner)

theorem statementsAtAll_append
    (src : Source)
    (owner : String)
    (sites more : List Site) :
    statementsAtAll src owner (sites ++ more) = (do
      let first ← statementsAtAll src owner sites
      let rest ← statementsAtAll src owner more
      return first ++ rest) := by
  simp [statementsAtAll, List.mapM_append]

theorem withHandlers_of_none
    {s : Statement}
    (hNone : s.parts.bind Parts.handlers = none)
    (handlers : List String) :
    withHandlers handlers s = s := by
  rcases s with ⟨kind, owner, parts, range, line⟩
  cases parts with
  | none => rfl
  | some parts =>
      rcases parts with
        ⟨type, name, var, arity, target, recv, caught⟩
      cases hNone
      rfl

/- What is caught around a site counts for calls only. -/
theorem statementsAt_of_not_isCall
    {form : Form}
    (hCall : form.isCall = false)
    (span : Span)
    (handlers : List Span)
    (texts : List String) :
    statementsAt src owner ⟨form, span, handlers⟩ = (do
      let statements ← statementsAt src owner ⟨form, span, []⟩
      return statements.map (withHandlers texts)) := by
  have hSame :
      statementsAt src owner ⟨form, span, handlers⟩ =
        statementsAt src owner ⟨form, span, []⟩ := by
    cases form with
    | creation | construction | call => cases hCall
    | _ => rfl
  rw [hSame]
  cases hAt : statementsAt src owner ⟨form, span, []⟩ with
  | error e => rfl
  | ok statements =>
      have hKept :
          statements.map (withHandlers texts) = statements := by
        refine (List.map_congr_left ?_).trans
          (List.map_id statements)
        intro s hs
        apply withHandlers_of_none
        rw [((statementsAt_spec hAt).2 s hs).handlers, hCall]
        rfl
      exact congrArg Except.ok hKept.symm

/-
  The texts of the types caught around a site can be put in
  afterwards.
-/
theorem statementsAt_eq
    (form : Form)
    (span : Span)
    {handlers : List Span}
    {texts : List String}
    (hTexts : typesAt src handlers = .ok texts) :
    statementsAt src owner ⟨form, span, handlers⟩ = (do
      let statements ← statementsAt src owner ⟨form, span, []⟩
      return statements.map (withHandlers texts)) := by
  have hNone : typesAt src [] = .ok [] := rfl
  cases form with
  | creation type arity =>
      unfold statementsAt
      simp only [hTexts, hNone]
      cases typeAt src type <;> rfl
  | construction target arity =>
      unfold statementsAt
      simp only [hTexts, hNone]
      cases src.text target <;> rfl
  | call receiver name arity =>
      unfold statementsAt
      simp only [hTexts, hNone]
      cases textAt? src Text.trim receiver with
      | error e => rfl
      | ok recv => cases src.text name <;> rfl
  | _ => exact statementsAt_of_not_isCall rfl span handlers texts

/- The statements of a node are those of the site it is. -/
theorem statementsAtAll_ownSites
    (t : Tree)
    {handlers : List Span}
    {texts : List String}
    (hTexts : typesAt src handlers = .ok texts) :
    statementsAtAll src owner (t.ownSites handlers) =
      statementsOf src owner t texts := by
  by_cases hSite : t.form.isSite = true
  · rw [Tree.ownSites, if_pos hSite, statementsOf,
      ← statementsAt_eq t.form t.span hTexts]
    simp [statementsAtAll]
  · have hNone :
        statementsAt src owner ⟨t.form, t.span, []⟩ = .ok [] := by
      cases hForm : t.form with
      | trying | catching | finishing | lambda | nested => rfl
      | _ => exact absurd (by rw [hForm]; rfl) hSite
    rw [Tree.ownSites, if_neg hSite, statementsOf, hNone]
    rfl

------------------------------------------------------------
-- Caught Types
------------------------------------------------------------

/- If something fails, it is a text that cannot be read. -/
theorem eq_error
    {α : Type}
    {x : Except TextError α}
    (hFails : ¬Succeeds x) :
    x = .error .undecodable := by
  cases x with
  | error e => cases e; rfl
  | ok a => exact absurd ⟨a, rfl⟩ hFails

/- The types of a clause stand in its parameters. -/
theorem exists_parameter_of_mem_clauseTypes
    {clause : Tree}
    {type : Span}
    (hType : type ∈ clauseTypes clause) :
    clause.form = .catching ∧
      ∃ p ∈ clause.children, ∃ types name,
        p.form = .caught types name ∧ type ∈ types := by
  rcases clause with ⟨form, span, children⟩
  cases form with
  | catching =>
      rcases List.mem_flatMap.mp hType with ⟨p, hParam, hType⟩
      rcases p with ⟨form, span, below⟩
      cases form with
      | caught types name =>
          exact ⟨rfl, _, hParam, types, name, rfl, hType⟩
      | _ => cases hType
  | _ => cases hType

/- The parameters of the clauses of a try statement are sites. -/
theorem mem_sites_of_parameter
    {t clause p : Tree}
    (hForm : t.form = .trying)
    (hClause : clause ∈ t.children)
    (hCatching : clause.form = .catching)
    (hParam : p ∈ clause.children)
    {types : List Span}
    {name : Span}
    (hCaught : p.form = .caught types name)
    (handlers : List Span) :
    ∃ site ∈ t.sites handlers,
      site.form = .caught types name := by
  have hOwn :
      ∀ around, ∃ site ∈ p.sites around,
        site.form = .caught types name := by
    intro around
    rw [p.sites_eq around (by simp [hCaught]), Tree.ownSites,
      if_pos (by rw [hCaught]; rfl)]
    exact ⟨_, List.mem_cons_self, hCaught⟩
  rcases hOwn (clause.around (t.around handlers clause) p) with
    ⟨site, hSite, hSiteForm⟩
  refine ⟨site, ?_, hSiteForm⟩
  apply Tree.mem_sites_of_child (by simp [hForm]) hClause
  exact Tree.mem_sites_of_child (by simp [hCatching]) hParam
    hSite

/- The types that a try statement catches stand in its sites. -/
theorem exists_site_of_mem_caughtTypes
    {t : Tree}
    (hForm : t.form = .trying)
    {type : Span}
    (hType : type ∈ caughtTypes t.children)
    (handlers : List Span) :
    ∃ site ∈ t.sites handlers, ∃ types name,
      site.form = .caught types name ∧ type ∈ types := by
  rcases List.mem_flatMap.mp hType with ⟨clause, hClause, hType⟩
  rcases exists_parameter_of_mem_clauseTypes hType with
    ⟨hCatching, p, hParam, types, name, hCaught, hType⟩
  rcases mem_sites_of_parameter hForm hClause hCatching hParam
      hCaught handlers with
    ⟨site, hSite, hSiteForm⟩
  exact ⟨site, hSite, types, name, hSiteForm, hType⟩

/-
  If the statements of a try statement can be read, so can the
  types that it catches.
-/
theorem succeeds_caughtTypes
    {t : Tree}
    (hForm : t.form = .trying)
    {handlers : List Span}
    (hRead :
      Succeeds (statementsAtAll src owner (t.sites handlers))) :
    Succeeds (typesAt src (caughtTypes t.children)) := by
  rcases hRead with ⟨statements, hRead⟩
  rcases map_eq_ok_iff.mp hRead with ⟨parts, hParts, -⟩
  apply Succeeds.mapM
  intro type hType
  rcases exists_site_of_mem_caughtTypes hForm hType handlers with
    ⟨site, hSite, types, name, hSiteForm, hType⟩
  rcases exists_of_mem_left (forall₂_of_mapM_eq_ok hParts)
      hSite with
    ⟨found, -, hFound⟩
  simp only [statementsAt, hSiteForm, bind_eq_ok_iff] at hFound
  rcases hFound with ⟨texts, hTexts, -⟩
  rcases exists_of_mem_left (forall₂_of_mapM_eq_ok hTexts)
      hType with
    ⟨text, -, hText⟩
  exact ⟨text, hText⟩

------------------------------------------------------------
-- Texts That Are Needed
------------------------------------------------------------

/- The stretches whose texts a node of this form has to give. -/
def Form.spans : Form → List Span
  | .locals type vars =>
      type :: vars.flatMap fun v => v.name :: v.created.toList
  | .loop type name => [type, name]
  | .caught types name => name :: types
  | .creation type _ => [type]
  | .construction target _ => [target]
  | .call receiver name _ => name :: receiver.toList
  | .throwing created named => created.toList ++ named.toList
  | _ => []

theorem succeeds_typeAt
    {span : Span}
    (hText : Succeeds (src.text span)) :
    Succeeds (typeAt src span) := by
  rcases hText with ⟨text, hText⟩
  exact ⟨plainType text, map_eq_ok_iff.mpr ⟨text, hText, rfl⟩⟩

theorem succeeds_textAt?
    (read : String → String)
    {span? : Option Span}
    (hText : ∀ span ∈ span?, Succeeds (src.text span)) :
    Succeeds (textAt? src read span?) := by
  cases span? with
  | none => exact ⟨none, rfl⟩
  | some span =>
      rcases hText span rfl with ⟨text, hText⟩
      exact ⟨some (read text),
        map_eq_ok_iff.mpr ⟨text, hText, rfl⟩⟩

theorem succeeds_variableType
    (type : String)
    {v : Variable}
    (hText : ∀ span ∈ v.created, Succeeds (src.text span)) :
    Succeeds (variableType src type v) := by
  unfold variableType
  cases hCreated : v.created with
  | none => exact ⟨type, rfl⟩
  | some created =>
      dsimp only
      split
      · exact succeeds_typeAt (hText created hCreated)
      · exact ⟨type, rfl⟩

/- A site can be read if the texts that it needs can be. -/
theorem succeeds_statementsAt
    (owner : String)
    {site : Site}
    (hForm :
      ∀ span ∈ site.form.spans, Succeeds (src.text span))
    (hHandlers :
      ∀ span ∈ site.handlers, Succeeds (src.text span)) :
    Succeeds (statementsAt src owner site) := by
  have hTypes : Succeeds (typesAt src site.handlers) :=
    .mapM fun span hSpan => succeeds_typeAt (hHandlers span hSpan)
  rcases site with ⟨form, span, handlers⟩
  unfold statementsAt
  cases form with
  | locals type vars =>
      have hType := hForm type List.mem_cons_self
      refine (succeeds_typeAt hType).bind fun type _ => ?_
      apply Succeeds.mapM
      intro v hVar
      have hSpans :
          ∀ span ∈ v.name :: v.created.toList,
            Succeeds (src.text span) := fun span hSpan =>
        hForm span (List.mem_cons_of_mem _
          (List.mem_flatMap.mpr ⟨v, hVar, hSpan⟩))
      refine (hSpans _ List.mem_cons_self).bind fun name _ => ?_
      have hCreated := succeeds_variableType type fun span hSpan =>
        hSpans span (List.mem_cons_of_mem _
          (Option.mem_toList.mpr hSpan))
      exact hCreated.bind fun _ _ => ⟨_, rfl⟩
  | loop type name =>
      simp only [Form.spans, List.forall_mem_cons] at hForm
      refine hForm.2.1.bind fun name _ => ?_
      exact (succeeds_typeAt hForm.1).bind fun _ _ => ⟨_, rfl⟩
  | caught types name =>
      simp only [Form.spans, List.forall_mem_cons] at hForm
      have hCaught : Succeeds (typesAt src types) :=
        .mapM fun span hSpan => succeeds_typeAt (hForm.2 span hSpan)
      refine hCaught.bind fun types _ => ?_
      exact hForm.1.bind fun _ _ => ⟨_, rfl⟩
  | creation type arity =>
      simp only [Form.spans, List.forall_mem_singleton] at hForm
      refine (succeeds_typeAt hForm).bind fun type _ => ?_
      exact hTypes.bind fun _ _ => ⟨_, rfl⟩
  | construction target arity =>
      simp only [Form.spans, List.forall_mem_singleton] at hForm
      refine hForm.bind fun target _ => ?_
      exact hTypes.bind fun _ _ => ⟨_, rfl⟩
  | call receiver name arity =>
      simp only [Form.spans, List.forall_mem_cons,
        Option.mem_toList] at hForm
      refine (succeeds_textAt? _ hForm.2).bind fun recv _ => ?_
      refine hForm.1.bind fun name _ => ?_
      exact hTypes.bind fun _ _ => ⟨_, rfl⟩
  | throwing created named =>
      simp only [Form.spans, List.forall_mem_append,
        Option.mem_toList] at hForm
      refine (succeeds_textAt? _ hForm.1).bind fun type _ => ?_
      exact (succeeds_textAt? _ hForm.2).bind fun _ _ => ⟨_, rfl⟩
  | _ => exact ⟨[], rfl⟩

theorem Tree.of_mem_around
    (t : Tree)
    {handlers : List Span}
    {child : Tree}
    {type : Span}
    (hType : type ∈ t.around handlers child) :
    type ∈ handlers ∨
      ∃ p ∈ t.sites handlers, type ∈ p.form.spans := by
  by_cases hForm : t.form = .trying
  · rw [Tree.around_of_trying hForm] at hType
    split at hType
    · exact .inl hType
    · rcases List.mem_append.mp hType with hOuter | hCaught
      · exact .inl hOuter
      · rcases exists_site_of_mem_caughtTypes hForm hCaught
            handlers with
          ⟨p, hParam, types, name, hParamForm, hMem⟩
        refine .inr ⟨p, hParam, ?_⟩
        rw [hParamForm]
        exact List.mem_cons_of_mem name hMem
  · rw [Tree.around_of_ne_trying hForm] at hType
    split at hType
    · cases hType
    · exact .inl hType

/-
  What is caught around a site of a node is caught around the
  node, or stands in the parameter of a catch clause, which is
  a site of the node itself.
-/
theorem Tree.of_mem_handlers
    (t : Tree)
    {handlers : List Span}
    {site : Site}
    (hSite : site ∈ t.sites handlers)
    {type : Span}
    (hType : type ∈ site.handlers) :
    type ∈ handlers ∨
      ∃ p ∈ t.sites handlers, type ∈ p.form.spans := by
  induction t using Tree.induction generalizing handlers with
  | node t ih =>
      have hNested : t.form ≠ .nested := by
        intro hNested
        rw [t.sites_of_nested handlers hNested] at hSite
        cases hSite
      rw [t.sites_eq handlers hNested, List.mem_append] at hSite
      rcases hSite with hOwn | hBelow
      · unfold Tree.ownSites at hOwn
        split at hOwn
        · rw [List.mem_singleton.mp hOwn] at hType
          exact .inl hType
        · cases hOwn
      · rcases List.mem_flatMap.mp hBelow with
          ⟨c, hChild, hSite⟩
        have hChild := List.mem_reverse.mp hChild
        rcases ih c hChild hSite with hAround | ⟨p, hParam, hSpan⟩
        · exact t.of_mem_around hAround
        · exact .inr ⟨p,
            Tree.mem_sites_of_child hNested hChild hParam, hSpan⟩

/-
  All statements of a body can be read if the texts that its
  sites need can be.
-/
theorem succeeds_statementsAtAll
    (owner : String)
    {body : List Tree}
    (hTexts :
      ∀ site ∈ sitesOf body, ∀ span ∈ site.form.spans,
        Succeeds (src.text span)) :
    Succeeds (statementsAtAll src owner (sitesOf body)) := by
  have hSites :
      sitesOf body = body.reverse.flatMap fun t => t.sites [] := by
    simp only [sitesOf, sitesAmong_eq, ite_self]
  have hAll :
      Succeeds ((sitesOf body).mapM (statementsAt src owner)) := by
    apply Succeeds.mapM
    intro site hSite
    apply succeeds_statementsAt owner (hTexts site hSite)
    intro type hType
    rw [hSites] at hSite
    rcases List.mem_flatMap.mp hSite with ⟨t, hBody, hSite⟩
    rcases t.of_mem_handlers hSite hType with
      hNone | ⟨p, hParam, hSpan⟩
    · cases hNone
    · apply hTexts p _ type hSpan
      rw [hSites]
      exact List.mem_flatMap.mpr ⟨t, hBody, hParam⟩
  rcases hAll with ⟨parts, hParts⟩
  exact ⟨parts.flatten, map_eq_ok_iff.mpr ⟨parts, hParts, rfl⟩⟩

------------------------------------------------------------
-- Walk
------------------------------------------------------------

/-
  What the walk does with a node on top of the stack: it reads
  the statements of its sites and goes on with the rest.
-/
def Reads
    (src : Source)
    (owner : String)
    (t : Tree)
    (handlers : List Span)
    (texts : List String) : Prop :=
  ∀ statements stack,
    walk src owner statements ((t, texts) :: stack) = (do
      let found ← statementsAtAll src owner (t.sites handlers)
      walk src owner (statements ++ found) stack)

/- Nodes that are read one by one are read together. -/
theorem walk_stacked
    {ts : List Tree}
    {around : Tree → List Span}
    {texts : Tree → List String}
    (hReads :
      ∀ t ∈ ts, t.form ≠ .nested →
        Reads src owner t (around t) (texts t))
    (statements : List Statement)
    (stack : List (Tree × List String)) :
    walk src owner statements (stacked ts texts ++ stack) = (do
      let found ← statementsAtAll src owner
        (ts.reverse.flatMap fun t => t.sites (around t))
      walk src owner (statements ++ found) stack) := by
  have hReversed :
      ∀ t ∈ ts.reverse, t.form ≠ .nested →
        Reads src owner t (around t) (texts t) := fun t ht =>
    hReads t (List.mem_reverse.mp ht)
  unfold stacked
  generalize ts.reverse = nodes at hReversed
  induction nodes generalizing statements with
  | nil =>
      have hNone :
          statementsAtAll src owner [] = .ok [] := rfl
      rw [List.filter_nil, List.map_nil, List.nil_append,
        List.flatMap_nil, hNone]
      exact congrArg (walk src owner · stack)
        (List.append_nil statements).symm
  | cons t nodes ih =>
      have hRest := fun more => ih more fun u hu =>
        hReversed u (List.mem_cons_of_mem _ hu)
      by_cases hForm : t.form = .nested
      · rw [List.filter_cons_of_neg (by simp [hForm]),
          hRest, List.flatMap_cons,
          t.sites_of_nested _ hForm, List.nil_append]
      · rw [List.filter_cons_of_pos (by simp [hForm]),
          List.map_cons, List.cons_append,
          hReversed t List.mem_cons_self hForm,
          List.flatMap_cons, statementsAtAll_append, bind_assoc]
        apply bind_congr
        intro found
        rw [hRest, bind_assoc]
        apply bind_congr
        intro more
        rw [pure_bind, List.append_assoc]

theorem typesAt_append
    {first second : List Span}
    {texts more : List String}
    (hFirst : typesAt src first = .ok texts)
    (hSecond : typesAt src second = .ok more) :
    typesAt src (first ++ second) = .ok (texts ++ more) := by
  unfold typesAt at hFirst hSecond ⊢
  rw [List.mapM_append, hFirst, hSecond]
  rfl

/-
  A try statement is read if its children are. If the types
  that it catches cannot be read, neither can its statements.
-/
theorem reads_of_trying
    {t : Tree}
    (hForm : t.form = .trying)
    {handlers : List Span}
    {texts : List String}
    (hTexts : typesAt src handlers = .ok texts)
    (hChildren :
      ∀ c ∈ t.children, c.form ≠ .nested →
        ∀ handlers texts, typesAt src handlers = .ok texts →
          Reads src owner c handlers texts) :
    Reads src owner t handlers texts := by
  intro statements stack
  rw [walk, if_pos hForm]
  by_cases hRead :
      Succeeds (typesAt src (caughtTypes t.children))
  · rcases hRead with ⟨caught, hCaught⟩
    have hReads :
        ∀ c ∈ t.children, c.form ≠ .nested →
          Reads src owner c (t.around handlers c)
            (if c.isClause then texts else texts ++ caught) := by
      intro c hChild hNested
      apply hChildren c hChild hNested
      rw [Tree.around_of_trying hForm]
      by_cases hClause : c.isClause = true
      · rw [if_pos hClause, if_pos hClause]
        exact hTexts
      · rw [if_neg hClause, if_neg hClause]
        exact typesAt_append hTexts hCaught
    have hSites :
        t.sites handlers =
          t.children.reverse.flatMap fun c =>
            c.sites (t.around handlers c) := by
      rw [t.sites_eq handlers (by simp [hForm]), Tree.ownSites,
        hForm]
      rfl
    rw [hCaught, hSites]
    exact walk_stacked hReads statements stack
  · have hFails :
        ¬Succeeds (statementsAtAll src owner (t.sites handlers)) :=
      mt (succeeds_caughtTypes hForm) hRead
    rw [eq_error hRead, eq_error hFails]
    rfl

/- Any other node is read if its children are. -/
theorem reads_of_ne_trying
    {t : Tree}
    (hNested : t.form ≠ .nested)
    (hForm : t.form ≠ .trying)
    {handlers : List Span}
    {texts : List String}
    (hTexts : typesAt src handlers = .ok texts)
    (hChildren :
      ∀ c ∈ t.children, c.form ≠ .nested →
        ∀ handlers texts, typesAt src handlers = .ok texts →
          Reads src owner c handlers texts) :
    Reads src owner t handlers texts := by
  intro statements stack
  have hReads :
      ∀ c ∈ t.children, c.form ≠ .nested →
        Reads src owner c (t.around handlers c)
          (if t.form = .lambda then [] else texts) := by
    intro c hChild hOutside
    apply hChildren c hChild hOutside
    rw [Tree.around_of_ne_trying hForm]
    by_cases hLambda : t.form = .lambda
    · rw [if_pos hLambda, if_pos hLambda]
      rfl
    · rw [if_neg hLambda, if_neg hLambda]
      exact hTexts
  rw [walk, if_neg hForm, t.sites_eq handlers hNested,
    statementsAtAll_append, bind_assoc,
    statementsAtAll_ownSites t hTexts]
  apply bind_congr
  intro found
  rw [walk_stacked hReads, bind_assoc]
  apply bind_congr
  intro more
  rw [pure_bind, List.append_assoc]

/- Every node on the stack is read. -/
theorem Tree.reads
    (src : Source)
    (owner : String)
    (t : Tree)
    (hNested : t.form ≠ .nested) :
    ∀ handlers texts, typesAt src handlers = .ok texts →
      Reads src owner t handlers texts := by
  induction t using Tree.induction with
  | node t ih =>
      intro handlers texts hTexts
      by_cases hForm : t.form = .trying
      · exact reads_of_trying hForm hTexts ih
      · exact reads_of_ne_trying hNested hForm hTexts ih

/- The walk over a body reads the statements of its sites. -/
theorem walk_body
    (src : Source)
    (owner : String)
    (body : List Tree) :
    walk src owner [] (stacked body fun _ => []) =
      statementsAtAll src owner (sitesOf body) := by
  have hWalk :
      walk src owner [] (stacked body (fun _ => []) ++ []) = (do
        let found ← statementsAtAll src owner
          (body.reverse.flatMap fun t => t.sites [])
        walk src owner ([] ++ found) []) := by
    apply walk_stacked
    intro t _ hNested
    exact t.reads src owner hNested [] [] rfl
  rw [List.append_nil] at hWalk
  rw [hWalk, sitesOf, sitesAmong_eq]
  simp only [ite_self, List.nil_append, walk]
  exact bind_pure _

/-
  The walk with a stack over a body reads just the statements
  of the sites of the body. These are listed by their places,
  each once, a node before the nodes inside it and these from
  the last to the first. The sites are all nodes that say
  something about exceptions and are not part of a nested type.
  If the texts of the sites can be read, the walk succeeds. A
  site that declares variables has one statement for each, and
  any other site has one. The statement of a call has the types
  that are caught around it.
-/
theorem statements_exact
    (src : Source)
    (owner : String)
    (body : List Tree) :
    ∃ found : List (List Nat × Site),
      (found.Pairwise fun a b => Precedes a.1 b.1) ∧
      (∀ place site, (place, site) ∈ found ↔
        SiteAt body place site) ∧
      sitesOf body = found.map Prod.snd ∧
      walk src owner [] (stacked body fun _ => []) =
        statementsAtAll src owner (sitesOf body) ∧
      ((∀ f ∈ found, ∀ span ∈ f.2.form.spans,
          Succeeds (src.text span)) →
        Succeeds (walk src owner [] (stacked body fun _ => []))) ∧
      ∀ f ∈ found, ∀ statements,
        statementsAt src owner f.2 = .ok statements →
          statements.length = f.2.form.entries ∧
            ∀ s ∈ statements, Describes src owner f.2 s := by
  rcases exists_found_body body with
    ⟨found, hSites, hOrder, hMem⟩
  refine ⟨found, hOrder, hMem, hSites,
    walk_body src owner body, ?_, ?_⟩
  · intro hTexts
    rw [walk_body]
    apply succeeds_statementsAtAll
    intro site hSite
    rw [hSites] at hSite
    rcases List.mem_map.mp hSite with ⟨f, hFound, rfl⟩
    exact hTexts f hFound
  · intro f _ statements hAt
    exact statementsAt_spec hAt

end Java

end Uncaught
