/-
Trees of tasks, given by the parent of each task, and the order in which a tree
is cancelled:

* `Edge`, `ChildMap`: the parent of a task, and the children of every task;
* `cancellationOrder`: children before their parents, siblings by ascending
  number, found with a stack so that no tree is too deep;
* `postOrder`: the same order by recursion;
* `cancellationOrder_eq_postOrder`: both agree on every list of edges.
-/
import LeaseQueue.Task.Basic
import Std.Data.HashMap

namespace LeaseQueue

/-- A task and its parent. -/
abbrev Edge := TaskId × Option TaskId

namespace Forest

/-! ### Children -/

/-- The children of some tasks. -/
abbrev ChildMap := Std.HashMap TaskId (List TaskId)

/-- The children of a task. -/
def childrenOf (children : ChildMap) (id : TaskId) : List TaskId := children.getD id []

/-- Puts the task of an edge in front of the children of its parent. -/
def addEdge (children : ChildMap) : Edge → ChildMap
  | (_, none) => children
  | (id, some parent) => children.insert parent (id :: childrenOf children parent)

/-- The edge leads from a task to one of its children. -/
def isChildEdge (parent : TaskId) (edge : Edge) : Bool := edge.2 == some parent

theorem childrenOf_addEdge (children : ChildMap) (edge : Edge) (parent : TaskId) :
    childrenOf (addEdge children edge) parent =
      if isChildEdge parent edge then edge.1 :: childrenOf children parent
      else childrenOf children parent := by
  obtain ⟨id, _ | other⟩ := edge
  · simp [addEdge, isChildEdge]
  · by_cases h : other = parent
    · subst h; simp [addEdge, isChildEdge, childrenOf]
    · simp [addEdge, isChildEdge, childrenOf, Std.HashMap.getD_insert, h]

/-- The children of all tasks of a list of edges, the last edge first. -/
def ofEdges (edges : List Edge) : ChildMap := edges.foldl addEdge ∅

theorem childrenOf_foldl (edges : List Edge) (children : ChildMap) (parent : TaskId) :
    childrenOf (edges.foldl addEdge children) parent =
      ((edges.filter (isChildEdge parent)).map Prod.fst).reverse ++ childrenOf children parent := by
  induction edges generalizing children with
  | nil => simp
  | cons edge rest ih =>
    rw [List.foldl_cons, ih, childrenOf_addEdge]
    by_cases h : isChildEdge parent edge = true <;> simp [h]

theorem childrenOf_ofEdges (edges : List Edge) (parent : TaskId) :
    childrenOf (ofEdges edges) parent =
      ((edges.filter (isChildEdge parent)).map Prod.fst).reverse := by
  rw [ofEdges, childrenOf_foldl]
  simp [childrenOf]

theorem length_childrenOf_le (edges : List Edge) (parent : TaskId) :
    (childrenOf (ofEdges edges) parent).length ≤ edges.length := by
  rw [childrenOf_ofEdges]
  simpa using List.length_filter_le _ edges

/-- The edges of a tree below its root, by descending number of the task. What is
above the root does not count. -/
def below (root : TaskId) (edges : List Edge) : List Edge :=
  (edges.filter fun edge => edge.1 != root).mergeSort fun a b => decide (b.1 ≤ a.1)

/-! ### The order by recursion -/

/-- A task behind its descendants, down to a depth. -/
def postOrder (children : TaskId → List TaskId) : (depth : Nat) → TaskId → List TaskId
  | 0, id => [id]
  | depth + 1, id => (children id).flatMap (postOrder children depth) ++ [id]

/-! ### The order with a stack -/

/-- What is still to be done: enter the tree of a task, or leave it. -/
inductive Visit where
  | enter (id : TaskId) (depth : Nat)
  | leave (id : TaskId)

/-- A bound on the work in a tree of a depth, where no task has more than `n`
children: its root is entered and left. -/
def treeWork (n : Nat) : (depth : Nat) → Nat
  | 0 => 2
  | depth + 1 => n * treeWork n depth + 2

/-- A bound on the work that a visit stands for. -/
def Visit.weight (n : Nat) : Visit → Nat
  | .enter _ depth => treeWork n depth
  | .leave _ => 1

/-- A bound on the work in a stack of visits. -/
def stackWork (n : Nat) : List Visit → Nat
  | [] => 0
  | visit :: rest => visit.weight n + stackWork n rest

theorem stackWork_append (n : Nat) (first rest : List Visit) :
    stackWork n (first ++ rest) = stackWork n first + stackWork n rest := by
  induction first with
  | nil => simp [stackWork]
  | cons visit first ih => simp only [List.cons_append, stackWork, ih, Nat.add_assoc]

theorem stackWork_enter (n depth : Nat) (ids : List TaskId) :
    stackWork n (ids.map (Visit.enter · depth)) = ids.length * treeWork n depth := by
  induction ids with
  | nil => simp [stackWork]
  | cons id rest ih =>
    simp only [List.map_cons, stackWork, ih, Visit.weight, List.length_cons]
    rw [Nat.add_mul, Nat.one_mul, Nat.add_comm]

theorem work_children_lt {n : Nat} {ids : List TaskId} (h : ids.length ≤ n) (depth : Nat) :
    ids.length * treeWork n depth + 1 < treeWork n (depth + 1) := by
  have hmul : ids.length * treeWork n depth ≤ n * treeWork n depth :=
    Nat.mul_le_mul_right _ h
  simp only [treeWork]
  omega

/-- Works a stack of visits off, the top first. -/
def walk (children : TaskId → List TaskId) (n : Nat) (h : ∀ id, (children id).length ≤ n)
    (stack : List Visit) (order : List TaskId) : List TaskId :=
  match stack with
  | [] => order.reverse
  | .leave id :: rest => walk children n h rest (id :: order)
  | .enter id 0 :: rest => walk children n h (.leave id :: rest) order
  | .enter id (depth + 1) :: rest =>
    walk children n h ((children id).map (Visit.enter · depth) ++ .leave id :: rest) order
termination_by stackWork n stack
decreasing_by
  · simp [stackWork, Visit.weight]
  · simp [stackWork, Visit.weight, treeWork]
  · rw [stackWork_append, stackWork_enter]
    have : _ < treeWork n depth.succ := work_children_lt (h id) depth
    simp only [stackWork, Visit.weight]
    omega

/-- The tasks that a visit puts out. -/
def Visit.order (children : TaskId → List TaskId) : Visit → List TaskId
  | .enter id depth => postOrder children depth id
  | .leave id => [id]

theorem walk_eq (children : TaskId → List TaskId) (n : Nat)
    (h : ∀ id, (children id).length ≤ n) (stack : List Visit) (order : List TaskId) :
    walk children n h stack order = order.reverse ++ stack.flatMap (Visit.order children) := by
  fun_induction walk children n h stack order with
  | case1 => simp
  | case2 order id rest ih => simp [ih, Visit.order]
  | case3 order id rest ih => simp [ih, Visit.order, postOrder]
  | case4 order id depth rest ih =>
    rw [ih]
    simp [Visit.order, postOrder, List.flatMap_append, List.flatMap_map]

end Forest

open Forest in
/-- The tasks of a tree in the order in which they are cancelled. -/
def cancellationOrder (root : TaskId) (edges : List Edge) : List TaskId :=
  let edges := below root edges
  walk (childrenOf (ofEdges edges)) edges.length (length_childrenOf_le edges)
    [.enter root edges.length] []

open Forest in
theorem cancellationOrder_eq_postOrder (root : TaskId) (edges : List Edge) :
    cancellationOrder root edges =
      postOrder (childrenOf (ofEdges (below root edges))) (below root edges).length root := by
  simp [cancellationOrder, walk_eq, Visit.order]

end LeaseQueue
