/-
The order in which a tree is cancelled, for every list of edges in which each task has one edge
at most. Such a list may hold circles, tasks that are their own parents and parents without an
edge, and the root may have a parent, even in its own tree.

* `Forest.ChildOf`: a task and its parent in the tree of a root, `Forest.treeChildren`: the
  children that the order goes through;
* `Forest.Generation`: how far a task lies below the root, `Forest.Generation.le_length`: no
  further than there are edges;
* `TaskTree`, `TaskTree.postOrder`: a tree as data, and its tasks by recursion on it;
* `TaskTree.Spans`: the tree that the edges hold, with siblings in ascending order,
  `TaskTree.Spans.eq`: there is one at most, `Forest.exists_spans`: and there is one for each root;
* `TaskTree.Spans.mem_postOrder_iff`, `nodup_postOrder`, `sublist_postOrder`: what the order of
  such a tree holds, that it holds it once, and that descendants come first;
* `Forest.Tour.turn`: a turn of the loop over a stack, `TaskTree.Spans.turns`: how many turns a
  tree takes, and what they leave;
* `Forest.cancellationOrder_exact`: all of it for the order in which a tree is cancelled.

A circle that the root is not in is never entered. One that the root is in is cut at the root,
whose own edge does not count. So a task of the tree has one chain of parents, which ends at the
root and holds no task twice.
-/
import LeaseQueue.Task.Forest
import Mathlib.Logic.Relation
import Mathlib.Tactic

namespace LeaseQueue

open Relation

namespace Forest

/-! ### Children -/

/-- The edge of a task leads to a parent. -/
def HasParent (edges : List Edge) (id parent : TaskId) : Prop := (id, some parent) ∈ edges

instance (edges : List Edge) (id parent : TaskId) : Decidable (HasParent edges id parent) :=
  inferInstanceAs (Decidable (_ ∈ _))

/-- In the tree of a root a task is a child of another one. What is above the root does not
count. -/
def ChildOf (root : TaskId) (edges : List Edge) (id parent : TaskId) : Prop :=
  id ≠ root ∧ HasParent edges id parent

instance (root : TaskId) (edges : List Edge) (id parent : TaskId) :
    Decidable (ChildOf root edges id parent) :=
  inferInstanceAs (Decidable (_ ∧ _))

/-- The children of the tasks in the tree of a root. -/
def treeChildren (root : TaskId) (edges : List Edge) : TaskId → List TaskId :=
  childrenOf (ofEdges (below root edges))

variable {root id parent : TaskId} {edges : List Edge}

lemma mem_below {edge : Edge} : edge ∈ below root edges ↔ edge ∈ edges ∧ edge.1 ≠ root := by
  simp [below, List.mem_mergeSort]

lemma mem_childrenOf : id ∈ childrenOf (ofEdges edges) parent ↔ (id, some parent) ∈ edges := by
  rw [childrenOf_ofEdges]
  simp [isChildEdge]

lemma mem_treeChildren : id ∈ treeChildren root edges parent ↔ ChildOf root edges id parent := by
  rw [treeChildren, mem_childrenOf, mem_below]
  exact and_comm

/-- A task has one parent at most. -/
lemma HasParent.eq (unique : (edges.map Prod.fst).Nodup) {other : TaskId}
    (h : HasParent edges id parent) (h' : HasParent edges id other) : parent = other := by
  have hsame : ((id, some parent) : Edge) = (id, some other) :=
    List.inj_on_of_nodup_map unique h h' rfl
  exact Option.some.inj (congrArg Prod.snd hsame)

lemma rightUnique_childOf (unique : (edges.map Prod.fst).Nodup) (root : TaskId) :
    Relator.RightUnique (ChildOf root edges) := fun _ _ _ h h' => h.2.eq unique h'.2

/-- The children of a task stand in ascending order. -/
lemma pairwise_treeChildren (unique : (edges.map Prod.fst).Nodup) (root parent : TaskId) :
    (treeChildren root edges parent).Pairwise (· < ·) := by
  have hsorted : (below root edges).Pairwise fun a b => b.1 ≤ a.1 := by
    have hle : (below root edges).Pairwise fun a b => decide (b.1 ≤ a.1) = true := by
      refine List.pairwise_mergeSort (fun a b c hab hbc => ?_) (fun a b => ?_) _
      · rw [decide_eq_true_eq] at *
        exact hbc.trans hab
      · simpa using le_total b.1 a.1
    exact hle.imp fun h => by simpa using h
  have hnodup : (below root edges).Pairwise fun a b => a.1 ≠ b.1 := by
    refine ((List.mergeSort_perm _ _).pairwise_iff fun h => h.symm).mpr ?_
    exact (List.pairwise_map.mp unique).filter _
  rw [treeChildren, childrenOf_ofEdges, List.pairwise_reverse, List.pairwise_map]
  exact ((hsorted.and hnodup).imp fun h => lt_of_le_of_ne h.1 h.2.symm).filter _

/-- A chain of parents that ends at the root does not need the edge of the root. -/
lemma reaches_iff :
    ReflTransGen (HasParent edges) id root ↔ ReflTransGen (ChildOf root edges) id root := by
  refine ⟨fun h => ?_, fun h => h.lift (fun task => task) fun _ _ hchild => hchild.2⟩
  induction h using ReflTransGen.head_induction_on with
  | refl => exact .refl
  | @head id parent hparent _ ih =>
      by_cases hid : id = root
      · rw [hid]
      · exact .head ⟨hid, hparent⟩ ih

/-! ### Generations -/

/-- A task lies so many generations below a root. -/
inductive Generation (root : TaskId) (edges : List Edge) : Nat → TaskId → Prop where
  | root : Generation root edges 0 root
  | child {n : Nat} {id parent : TaskId} (h : ChildOf root edges id parent)
      (above : Generation root edges n parent) : Generation root edges (n + 1) id

namespace Generation

variable {n m : Nat}

/-- A task is of one generation. -/
lemma eq (unique : (edges.map Prod.fst).Nodup) (h : Generation root edges n id)
    (h' : Generation root edges m id) : n = m := by
  induction h generalizing m with
  | root =>
      cases h' with
      | root => rfl
      | child hchild => exact absurd rfl hchild.1
  | child hchild _ ih =>
      cases h' with
      | root => exact absurd rfl hchild.1
      | child hchild' above =>
          rw [hchild.2.eq unique hchild'.2] at ih
          rw [ih above]

/-- Descendants are of later generations. -/
lemma of_transGen (h : Generation root edges n parent)
    (below : TransGen (ChildOf root edges) id parent) :
    ∃ m, n < m ∧ Generation root edges m id := by
  induction below using TransGen.head_induction_on with
  | single hchild => exact ⟨n + 1, n.lt_succ_self, .child hchild h⟩
  | head hchild _ ih =>
      obtain ⟨m, hlt, hm⟩ := ih
      exact ⟨m + 1, hlt.trans m.lt_succ_self, .child hchild hm⟩

/-- No task is its own descendant. -/
lemma not_transGen_self (unique : (edges.map Prod.fst).Nodup) (h : Generation root edges n id) :
    ¬ TransGen (ChildOf root edges) id id := by
  intro hself
  obtain ⟨m, hlt, hm⟩ := h.of_transGen hself
  exact hlt.ne (h.eq unique hm)

/-- Of the same generation no task is a descendant of another one. -/
lemma eq_of_reaches (unique : (edges.map Prod.fst).Nodup) (h : Generation root edges n id)
    (h' : Generation root edges n parent) (reaches : ReflTransGen (ChildOf root edges) id parent) :
    id = parent := by
  rcases reflTransGen_iff_eq_or_transGen.mp reaches with hsame | hbelow
  · exact hsame.symm
  · obtain ⟨m, hlt, hm⟩ := h'.of_transGen hbelow
    exact absurd (h.eq unique hm) hlt.ne

/-- The tasks from below the root down to a task of some generation: as many as generations, each
with an edge of its own. -/
lemma exists_path (unique : (edges.map Prod.fst).Nodup) (h : Generation root edges n id) :
    ∃ path : List TaskId, path.length = n ∧ path.Nodup ∧
      path ⊆ (Forest.below root edges).map Prod.fst ∧
      ∀ task ∈ path, ∃ m ≤ n, Generation root edges m task := by
  induction h with
  | root => exact ⟨[], rfl, .nil, List.nil_subset _, by simp⟩
  | @child n id parent hchild above ih =>
      obtain ⟨path, hlength, hnodup, hsubset, hearlier⟩ := ih
      have hid : Generation root edges (n + 1) id := .child hchild above
      have hnew : id ∉ path := by
        intro hmem
        obtain ⟨m, hle, hm⟩ := hearlier id hmem
        have hsame := hid.eq unique hm
        omega
      have hedge : id ∈ (Forest.below root edges).map Prod.fst :=
        List.mem_map.mpr ⟨_, mem_below.mpr ⟨hchild.2, hchild.1⟩, rfl⟩
      refine ⟨id :: path, by simp [hlength], List.nodup_cons.mpr ⟨hnew, hnodup⟩,
        List.cons_subset.mpr ⟨hedge, hsubset⟩, fun task hmem => ?_⟩
      rcases List.mem_cons.mp hmem with rfl | hmem
      · exact ⟨n + 1, le_rfl, hid⟩
      · obtain ⟨m, hle, hm⟩ := hearlier task hmem
        exact ⟨m, hle.trans n.le_succ, hm⟩

/-- There are no more generations than edges. -/
lemma le_length (unique : (edges.map Prod.fst).Nodup) (h : Generation root edges n id) :
    n ≤ (Forest.below root edges).length := by
  obtain ⟨path, rfl, hnodup, hsubset, -⟩ := h.exists_path unique
  simpa using (hnodup.subperm hsubset).length_le

end Generation
end Forest

/-! ### Trees -/

/-- A task with the trees of its children. -/
inductive TaskTree where
  | node (id : TaskId) (children : List TaskTree)

namespace TaskTree

open Forest

/-- The task at the top of a tree. -/
def top : TaskTree → TaskId
  | .node id _ => id

mutual

/-- The tasks of a tree, each behind its descendants. -/
def postOrder : TaskTree → List TaskId
  | .node id children => postOrders children ++ [id]

/-- The tasks of some trees, one tree behind the other. -/
def postOrders : List TaskTree → List TaskId
  | [] => []
  | tree :: rest => postOrder tree ++ postOrders rest

end

lemma postOrders_eq (trees : List TaskTree) : postOrders trees = trees.flatMap postOrder := by
  induction trees with
  | nil => rw [postOrders, List.flatMap_nil]
  | cons tree rest ih => rw [postOrders, ih, List.flatMap_cons]

lemma postOrder_node (id : TaskId) (children : List TaskTree) :
    (node id children).postOrder = children.flatMap postOrder ++ [id] := by
  rw [postOrder, postOrders_eq]

/-- The top of a tree comes last. -/
lemma getLast?_postOrder (tree : TaskTree) : tree.postOrder.getLast? = some tree.top := by
  obtain ⟨id, children⟩ := tree
  rw [postOrder_node, List.getLast?_concat]
  rfl

/-- The tree that edges hold below a task of the tree of a root. Under every task stand its
children and no others, in ascending order. -/
inductive Spans (root : TaskId) (edges : List Edge) : TaskTree → Prop where
  | node {id : TaskId} {children : List TaskTree}
      (ascending : (children.map top).Pairwise (· < ·))
      (complete : ∀ child, child ∈ children.map top ↔ ChildOf root edges child id)
      (spans : ∀ child ∈ children, Spans root edges child) : Spans root edges (node id children)

/-- The tree of a task down to a depth. -/
def grow (children : TaskId → List TaskId) : (depth : Nat) → TaskId → TaskTree
  | 0, id => node id []
  | depth + 1, id => node id ((children id).map (grow children depth))

@[simp] lemma top_grow (children : TaskId → List TaskId) (depth : Nat) (id : TaskId) :
    (grow children depth id).top = id := by
  cases depth <;> rfl

/-- The order of a tree that was grown is the order down to its depth. -/
lemma postOrder_grow (children : TaskId → List TaskId) (depth : Nat) (id : TaskId) :
    (grow children depth id).postOrder = Forest.postOrder children depth id := by
  induction depth generalizing id with
  | zero => rw [grow, postOrder_node, List.flatMap_nil]; rfl
  | succ depth ih =>
      rw [grow, postOrder_node, List.flatMap_map, Forest.postOrder]
      simp only [ih]

namespace Spans

variable {root id parent : TaskId} {edges : List Edge} {tree : TaskTree}

/-- The trees of a task and its children hold the tasks from which parents lead there. -/
theorem mem_postOrder_iff (h : tree.Spans root edges) :
    id ∈ tree.postOrder ↔ ReflTransGen (ChildOf root edges) id tree.top := by
  induction h with
  | @node top children ascending complete spans ih =>
      rw [postOrder_node, List.mem_append, List.mem_singleton, List.mem_flatMap]
      constructor
      · rintro (⟨child, hchild, hid⟩ | rfl)
        · exact ((ih child hchild).mp hid).tail ((complete _).mp (List.mem_map_of_mem hchild))
        · exact .refl
      · intro hreaches
        rcases ReflTransGen.cases_tail hreaches with hsame | ⟨below, hbelow, hchild⟩
        · exact .inr hsame.symm
        · obtain ⟨child, hmem, rfl⟩ := List.mem_map.mp ((complete below).mpr hchild)
          exact .inl ⟨child, hmem, (ih child hmem).mpr hbelow⟩

/-- No task stands in a tree twice: otherwise one task of a generation would be below another. -/
theorem nodup_postOrder (unique : (edges.map Prod.fst).Nodup) (h : tree.Spans root edges) {n : Nat}
    (place : Generation root edges n tree.top) : tree.postOrder.Nodup := by
  induction h generalizing n with
  | @node top children ascending complete spans ih =>
      have hplace : ∀ child ∈ children, Generation root edges (n + 1) child.top :=
        fun child hchild => .child ((complete _).mp (List.mem_map_of_mem hchild)) place
      have hmem : ∀ child ∈ children, ∀ id, id ∈ child.postOrder ↔
          ReflTransGen (ChildOf root edges) id child.top :=
        fun child hchild _ => (spans child hchild).mem_postOrder_iff
      rw [postOrder_node, List.nodup_append]
      refine ⟨List.nodup_flatMap.mpr
        ⟨fun child hchild => ih child hchild (hplace child hchild), ?_⟩,
        List.nodup_singleton _, ?_⟩
      · -- a common descendant of two children would put one of them below the other
        refine (List.pairwise_map.mp ascending).imp_of_mem fun {a b} ha hb hlt => ?_
        refine List.disjoint_left.mpr fun id hida hidb => hlt.ne ?_
        rcases ReflTransGen.total_of_right_unique (rightUnique_childOf unique root)
          ((hmem a ha id).mp hida) ((hmem b hb id).mp hidb) with hreaches | hreaches
        · exact (hplace a ha).eq_of_reaches unique (hplace b hb) hreaches
        · exact ((hplace b hb).eq_of_reaches unique (hplace a ha) hreaches).symm
      · rintro id hid _ hlast rfl
        obtain ⟨child, hchild, hid⟩ := List.mem_flatMap.mp hid
        obtain rfl := List.mem_singleton.mp hlast
        exact place.not_transGen_self unique (TransGen.tail' ((hmem child hchild id).mp hid)
          ((complete _).mp (List.mem_map_of_mem hchild)))

/-- Every task comes behind its descendants. -/
theorem sublist_postOrder (h : tree.Spans root edges) (hparent : parent ∈ tree.postOrder)
    (hbelow : TransGen (ChildOf root edges) id parent) : [id, parent].Sublist tree.postOrder := by
  induction h with
  | @node top children ascending complete spans ih =>
      rw [postOrder_node] at hparent ⊢
      rcases List.mem_append.mp hparent with hmem | hmem
      · obtain ⟨child, hchild, hmem⟩ := List.mem_flatMap.mp hmem
        have hsub : child.postOrder.Sublist (children.flatMap postOrder) :=
          List.sublist_flatten_of_mem (List.mem_map_of_mem hchild)
        exact ((ih child hchild hmem).trans hsub).trans (List.sublist_append_left _ _)
      · obtain rfl := List.mem_singleton.mp hmem
        obtain ⟨below, hreaches, hchildOf⟩ := TransGen.tail'_iff.mp hbelow
        obtain ⟨child, hchild, rfl⟩ := List.mem_map.mp ((complete below).mpr hchildOf)
        have hmem : id ∈ children.flatMap postOrder := List.mem_flatMap.mpr
          ⟨child, hchild, (spans child hchild).mem_postOrder_iff.mpr hreaches⟩
        exact (List.singleton_sublist.mpr hmem).append_right [parent]

/-- Edges hold one tree of a task. -/
theorem eq (h : tree.Spans root edges) {other : TaskTree} (h' : other.Spans root edges)
    (hsame : tree.top = other.top) : tree = other := by
  induction h generalizing other with
  | @node id children ascending complete spans ih =>
      cases h' with
      | @node id' children' ascending' complete' spans' =>
          obtain rfl : id = id' := hsame
          have htops : children.map top = children'.map top := by
            have hperm : (children.map top).Perm (children'.map top) :=
              (List.perm_ext_iff_of_nodup (ascending.imp ne_of_lt) (ascending'.imp ne_of_lt)).mpr
                fun child => (complete child).trans (complete' child).symm
            exact hperm.eq_of_pairwise (fun a b _ _ hab hba => absurd hba hab.not_gt) ascending
              ascending'
          congr 1
          refine List.ext_getElem (by simpa using congrArg List.length htops) fun i hi hi' => ?_
          refine ih _ (List.getElem_mem hi) (spans' _ (List.getElem_mem hi')) ?_
          have hi'' : i < (children.map top).length := by simpa using hi
          simpa only [List.getElem_map] using List.getElem_of_eq htops hi''

/-- The order of the edges does not matter for their tree. -/
lemma of_perm (h : tree.Spans root edges) {other : List Edge} (perm : other.Perm edges) :
    tree.Spans root other := by
  induction h with
  | @node id children ascending complete spans ih =>
      refine .node ascending (fun child => (complete child).trans ?_) ih
      exact and_congr_right fun _ => perm.mem_iff.symm

end Spans
end TaskTree

namespace Forest

open TaskTree

variable {root id : TaskId} {edges : List Edge}

/-- A tree that is grown deep enough is the one that the edges hold. -/
lemma spans_grow (unique : (edges.map Prod.fst).Nodup) {n depth : Nat}
    (place : Generation root edges n id) (deep : (below root edges).length ≤ n + depth) :
    (grow (treeChildren root edges) depth id).Spans root edges := by
  induction depth generalizing n id with
  | zero =>
      refine .node .nil (fun child => ⟨fun h => by simp at h, fun hchild => ?_⟩) (by simp)
      -- a child would be of a generation that no task is of
      have hle := (Generation.child hchild place).le_length unique
      omega
  | succ depth ih =>
      have htops : ((treeChildren root edges id).map (grow (treeChildren root edges) depth)).map
          top = treeChildren root edges id := by
        simp [Function.comp_def]
      refine .node ?_ (fun child => ?_) fun tree htree => ?_
      · rw [htops]
        exact pairwise_treeChildren unique root id
      · rw [htops, mem_treeChildren]
      · obtain ⟨child, hchild, rfl⟩ := List.mem_map.mp htree
        exact ih (.child (mem_treeChildren.mp hchild) place) (by omega)

/-- Edges hold a tree of every root, and the tasks of this tree are cancelled in its order. -/
theorem exists_spans (unique : (edges.map Prod.fst).Nodup) (root : TaskId) :
    ∃ tree : TaskTree, tree.top = root ∧ tree.Spans root edges ∧
      tree.postOrder = cancellationOrder root edges := by
  refine ⟨grow (treeChildren root edges) (below root edges).length root, top_grow .., ?_, ?_⟩
  · exact spans_grow unique .root (by omega)
  · rw [postOrder_grow, cancellationOrder_eq_postOrder]
    rfl

/-- The tasks that are cancelled with a root are those from which parents lead to it. -/
theorem mem_cancellationOrder_iff (unique : (edges.map Prod.fst).Nodup) :
    id ∈ cancellationOrder root edges ↔ ReflTransGen (ChildOf root edges) id root := by
  obtain ⟨tree, rfl, hspans, horder⟩ := exists_spans unique root
  rw [← horder, hspans.mem_postOrder_iff]

/-- The edges may stand in any order. -/
theorem cancellationOrder_perm (unique : (edges.map Prod.fst).Nodup) {other : List Edge}
    (perm : other.Perm edges) : cancellationOrder root other = cancellationOrder root edges := by
  obtain ⟨tree, htop, hspans, horder⟩ := exists_spans unique root
  obtain ⟨tree', htop', hspans', horder'⟩ :=
    exists_spans ((perm.map Prod.fst).nodup_iff.mpr unique) root
  rw [← horder, ← horder', hspans'.eq (hspans.of_perm perm) (htop'.trans htop.symm)]

/-! ### The loop -/

/-- What the loop over a stack holds: the tasks that it still has to enter or, where the mark is
set, to leave, and the order so far. -/
structure Tour where
  stack : List (TaskId × Bool)
  order : List TaskId

/-- A turn of the loop takes the top of the stack. A task that is entered is put back to be left,
under its children. A task that is left is the next one of the order. With an empty stack the loop
is over. -/
def Tour.turn (children : TaskId → List TaskId) : Tour → Tour
  | ⟨[], order⟩ => ⟨[], order⟩
  | ⟨(id, false) :: rest, order⟩ => ⟨(children id).map (·, false) ++ (id, true) :: rest, order⟩
  | ⟨(id, true) :: rest, order⟩ => ⟨rest, order ++ [id]⟩

/-- Trees that stand on top of the stack are worked off one behind the other. -/
lemma Tour.turns_trees {children : TaskId → List TaskId} (trees : List TaskTree)
    (turns : ∀ tree ∈ trees, ∀ rest order,
      (Tour.turn children)^[2 * tree.postOrder.length] ⟨(tree.top, false) :: rest, order⟩ =
        ⟨rest, order ++ tree.postOrder⟩) (rest : List (TaskId × Bool)) (order : List TaskId) :
    (Tour.turn children)^[2 * (trees.flatMap TaskTree.postOrder).length]
        ⟨(trees.map top).map (·, false) ++ rest, order⟩ =
      ⟨rest, order ++ trees.flatMap TaskTree.postOrder⟩ := by
  induction trees generalizing order with
  | nil => simp
  | cons tree trees ih =>
      have hlength : 2 * ((tree :: trees).flatMap TaskTree.postOrder).length =
          2 * (trees.flatMap TaskTree.postOrder).length + 2 * tree.postOrder.length := by
        rw [List.flatMap_cons, List.length_append]
        omega
      rw [hlength, Function.iterate_add_apply, List.map_cons, List.map_cons, List.cons_append,
        turns tree List.mem_cons_self,
        ih fun other hother => turns other (List.mem_cons_of_mem _ hother), List.flatMap_cons,
        List.append_assoc]

end Forest

open Forest in
/-- The loop enters and leaves every task of a tree once. Then the tree is off the stack, and its
tasks are behind the order so far. -/
theorem TaskTree.Spans.turns {root : TaskId} {edges : List Edge} {tree : TaskTree}
    (unique : (edges.map Prod.fst).Nodup) (h : tree.Spans root edges)
    (rest : List (TaskId × Bool)) (order : List TaskId) :
    (Tour.turn (treeChildren root edges))^[2 * tree.postOrder.length]
        ⟨(tree.top, false) :: rest, order⟩ =
      ⟨rest, order ++ tree.postOrder⟩ := by
  induction h generalizing rest order with
  | @node id children ascending complete spans ih =>
      have hchildren : treeChildren root edges id = children.map top := by
        have hsorted := pairwise_treeChildren unique root id
        have hperm : (treeChildren root edges id).Perm (children.map top) :=
          (List.perm_ext_iff_of_nodup (hsorted.imp ne_of_lt) (ascending.imp ne_of_lt)).mpr
            fun child => mem_treeChildren.trans (complete child).symm
        exact hperm.eq_of_pairwise (fun a b _ _ hab hba => absurd hba hab.not_gt) hsorted ascending
      have hlength : 2 * (TaskTree.node id children).postOrder.length =
          2 * (children.flatMap TaskTree.postOrder).length + 1 + 1 := by
        rw [postOrder_node, List.length_append, List.length_singleton]
        omega
      have henter : Tour.turn (treeChildren root edges)
          ⟨((TaskTree.node id children).top, false) :: rest, order⟩ =
          ⟨(children.map top).map (·, false) ++ (id, true) :: rest, order⟩ := by
        rw [← hchildren]
        rfl
      rw [hlength, Function.iterate_succ_apply, henter, Function.iterate_succ_apply',
        Tour.turns_trees children ih, postOrder_node, ← List.append_assoc]
      rfl

/-! ### The order of a tree -/

namespace Forest

/-- The order in which a tree is cancelled, for every root and all edges in which each task occurs
once at most. The loop over a stack, which has no bound, is over behind two turns for every task
of the order, with just this order. It holds the root and of the other tasks those of the list
from which a chain of parents leads to the root, each of them once. Every task comes behind its
descendants, and the root comes last. The order is that of the recursion on the tree that the
edges hold, in which siblings ascend, and the order of the edges does not matter. -/
theorem cancellationOrder_exact (root : TaskId) (edges : List Edge)
    (unique : (edges.map Prod.fst).Nodup) :
    let order := cancellationOrder root edges
    (Tour.turn (treeChildren root edges))^[2 * order.length] ⟨[(root, false)], []⟩ = ⟨[], order⟩ ∧
      root ∈ order ∧
      (∀ id ≠ root, id ∈ order ↔
        id ∈ edges.map Prod.fst ∧ ReflTransGen (HasParent edges) id root) ∧
      order.Nodup ∧
      (∀ id, ∀ parent ∈ order, TransGen (ChildOf root edges) id parent →
        [id, parent].Sublist order) ∧
      order.getLast? = some root ∧
      (∃ tree : TaskTree, tree.top = root ∧ tree.Spans root edges ∧ tree.postOrder = order) ∧
      ∀ other, other.Perm edges → cancellationOrder root other = order := by
  intro order
  obtain ⟨tree, htop, hspans, horder⟩ :
      ∃ tree : TaskTree, tree.top = root ∧ tree.Spans root edges ∧ tree.postOrder = order :=
    exists_spans unique root
  have hmem : ∀ id, id ∈ order ↔ ReflTransGen (ChildOf root edges) id root :=
    fun _ => mem_cancellationOrder_iff unique
  refine ⟨?_, (hmem root).mpr .refl, fun id hid => ?_, ?_, fun id parent hparent hbelow => ?_, ?_,
    ⟨tree, htop, hspans, horder⟩, fun other perm => cancellationOrder_perm unique perm⟩
  · have hturns := hspans.turns unique [] []
    rwa [horder, htop, List.nil_append] at hturns
  · rw [hmem, reaches_iff]
    refine ⟨fun h => ⟨?_, h⟩, fun h => h.2⟩
    -- a chain from another task begins with the edge of the task
    rcases ReflTransGen.cases_head h with rfl | ⟨parent, hchild, -⟩
    · exact absurd rfl hid
    · exact List.mem_map.mpr ⟨_, hchild.2, rfl⟩
  · have place : Generation root edges 0 tree.top := by
      rw [htop]
      exact .root
    rw [← horder]
    exact hspans.nodup_postOrder unique place
  · rw [← horder] at hparent ⊢
    exact hspans.sublist_postOrder hparent hbelow
  · rw [← horder, tree.getLast?_postOrder, htop]

/-- A list of edges with a root in a circle, a circle besides, a task that is its own parent and
one whose parent has no edge. The tree holds five tasks, and all others are left out. -/
theorem cancellationOrder_knotted :
    let edges : List Edge := [(1, some 3), (5, some 1), (2, some 1), (4, some 2), (3, some 2),
      (7, some 7), (8, some 9), (9, some 8), (6, some 10)]
    (edges.map Prod.fst).Nodup ∧ (cancellationOrder 1 edges).Nodup ∧
      [3, 2].Sublist (cancellationOrder 1 edges) ∧
      (cancellationOrder 1 edges).getLast? = some 1 := by
  intro edges
  have unique : (edges.map Prod.fst).Nodup := by decide
  obtain ⟨-, -, hmem, hnodup, hlater, hlast, -⟩ := cancellationOrder_exact 1 edges unique
  have htwo : HasParent edges 2 1 := by decide
  have hthree : ChildOf 1 edges 3 2 := by decide
  refine ⟨unique, hnodup, hlater 3 2 ((hmem 2 (by decide)).mpr ⟨by decide, .single htwo⟩)
    (.single hthree), hlast⟩

example : cancellationOrder 1 [(1, some 3), (5, some 1), (2, some 1), (4, some 2), (3, some 2),
    (7, some 7), (8, some 9), (9, some 8), (6, some 10)] = [3, 4, 2, 5, 1] := by cbv

end Forest
end LeaseQueue
