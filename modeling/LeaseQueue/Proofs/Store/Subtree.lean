/-
The tasks that are cancelled with a root: the root with all its descendants.

* `Database.Sound.mem_treeOrder`: a root is cancelled together with its tree, and with no other
  task;
* `Table.under_map_iff`: changes that keep numbers and parents keep the trees.
-/
import LeaseQueue.Proofs.Store.Cancellation
import LeaseQueue.Proofs.Task.TreeOrder

namespace LeaseQueue

namespace Database.Sound

open Relation

variable {database : Database} {root id : TaskId}

/-- A root is cancelled together with its tree, and with no other task. -/
theorem mem_treeOrder (hs : database.Sound) (hown : ¬ database.rows.IsOwnParent root)
    (hroot : ∃ row ∈ database.rows, row.id = root) :
    id ∈ database.treeOrder root ↔ database.rows.Under root id := by
  rw [treeOrder, Forest.mem_cancellationOrder_iff (hs.nodup_walk hown)]
  constructor
  · intro h
    induction h using ReflTransGen.head_induction_on with
    | refl =>
        obtain ⟨row, hrow, hid⟩ := hroot
        exact .root hrow hid
    | head hchild _ ih =>
        obtain ⟨row, hrow, -, heq⟩ := (hs.mem_treeEdges_iff hown).mp hchild.2
        obtain ⟨rfl, hparent⟩ := Prod.mk.inj heq
        exact .child hrow hparent ih
  · intro h
    induction h with
    | root => exact .refl
    | @child row parent hrow hparent h ih =>
        have hlt := lt_of_le_of_lt (hs.root_le h) (hs.parent_lt hown h hrow hparent)
        have hedge : (row.id, some parent) ∈ treeEdges database.rows root :=
          (hs.mem_treeEdges_iff hown).mpr ⟨row, hrow, .child hrow hparent h, by rw [hparent]⟩
        exact .head ⟨hlt.ne', hedge⟩ ih

end Database.Sound

/-! ### Trees of changed tables -/

namespace Table

variable {table : Table} {f : Row → Row} {root id : TaskId}

/-- Where numbers and parents are kept, so are the trees. -/
lemma under_map_iff
    (hf : ∀ row ∈ table, (f row).id = row.id ∧ (f row).parent = row.parent) :
    Under (table.map f) root id ↔ table.Under root id := by
  constructor
  · intro h
    induction h with
    | root hrow hid =>
        obtain ⟨old, hold, rfl⟩ := List.mem_map.mp hrow
        exact .root hold ((hf old hold).1.symm.trans hid)
    | child hrow hparent _ ih =>
        obtain ⟨old, hold, rfl⟩ := List.mem_map.mp hrow
        rw [(hf old hold).1]
        exact .child hold ((hf old hold).2.symm.trans hparent) ih
  · intro h
    induction h with
    | root hrow hid => exact .root (List.mem_map_of_mem hrow) ((hf _ hrow).1.trans hid)
    | child hrow hparent _ ih =>
        have h := Under.child (List.mem_map_of_mem hrow) ((hf _ hrow).2.trans hparent) ih
        rwa [(hf _ hrow).1] at h

end Table
end LeaseQueue
