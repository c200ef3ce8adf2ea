import KernelIR.Pool.Tree
import KernelIR.Proofs.Types

/-!
Trees of types. Where the fields of a structure are older than the structure, as they are in an
ordered pool, every handle unfolds to a tree, also a handle that the pool does not have.
-/

set_option autoImplicit false

namespace KernelIR.Pool

def Founded (pool : Pool) : Prop :=
  ∀ (id : TypeId) (fields : List TypeId),
    pool.types[id]? = some (.record fields) → ∀ field ∈ fields, field < id

theorem Ordered.founded {pool : Pool} (ordered : pool.Ordered) : pool.Founded :=
  fun _ _ stored => ordered.older stored

/-- The fuel counts the types that are older than the one that is unfolded. -/
theorem Founded.treeFrom?_found {pool : Pool} (founded : pool.Founded) (fuel : Nat) (id : TypeId)
    (some : 0 < fuel) (enough : id < pool.size → id < fuel) :
    ∃ tree, pool.treeFrom? fuel id = .some tree := by
  induction fuel generalizing id with
  | zero => exact absurd some (Nat.lt_irrefl 0)
  | succ fuel ih =>
      unfold treeFrom?
      cases stored : pool.types[id]? with
      | none => exact ⟨.unknown id, rfl⟩
      | some data =>
          cases data with
          | scalar type => exact ⟨.scalar type, rfl⟩
          | record fields =>
              have inside := enough (lt_of_stored stored)
              have each : ∀ field ∈ fields, ∃ tree, pool.treeFrom? fuel field = .some tree := by
                intro field member
                have older := Nat.lt_of_lt_of_le (founded id fields stored field member)
                  (Nat.le_of_lt_succ inside)
                exact ih field (Nat.lt_of_le_of_lt (Nat.zero_le _) older) fun _ => older
              obtain ⟨trees, found⟩ := mapM_found each
              exact ⟨.record trees, by simp only [found, Option.map_some]⟩

theorem Founded.tree?_found {pool : Pool} (founded : pool.Founded) (id : TypeId) :
    ∃ tree, pool.tree? id = some tree :=
  founded.treeFrom?_found (pool.size + 1) id (Nat.succ_pos _) Nat.lt_succ_of_lt

theorem Founded.render?_found {pool : Pool} (founded : pool.Founded) (id : TypeId) :
    ∃ text, pool.render? id = some text := by
  obtain ⟨tree, found⟩ := founded.tree?_found id
  refine ⟨tree.text, ?_⟩
  unfold render?
  rw [found, Option.map_some]

theorem Ordered.treeFrom?_of_grown {before after : Pool} (ordered : before.Ordered)
    (grown : before.types <+: after.types) {fuel more : Nat} (enough : fuel ≤ more) {id : TypeId}
    (inside : id < before.size) {tree : TypeTree} (found : before.treeFrom? fuel id = some tree) :
    after.treeFrom? more id = some tree := by
  induction fuel generalizing more id tree with
  | zero => cases found
  | succ fuel ih =>
      obtain ⟨more, rfl⟩ := Nat.exists_eq_add_of_lt enough
      obtain ⟨data, stored⟩ := stored_of_lt inside
      unfold treeFrom? at found ⊢
      rw [stored] at found
      rw [stored_of_grown grown stored]
      cases data with
      | scalar type => exact found
      | record fields =>
          obtain ⟨trees, unfolded, rfl⟩ := Option.map_eq_some_iff.mp found
          refine Option.map_eq_some_iff.mpr ⟨trees, mapM_found_by ?_ unfolded, rfl⟩
          intro field member tree part
          have older := ordered.older stored field member
          exact ih (Nat.le_add_right fuel more) (Nat.lt_trans older inside) part

theorem Ordered.tree?_of_grown {before after : Pool} (ordered : before.Ordered)
    (grown : before.types <+: after.types) {id : TypeId} (inside : id < before.size) :
    after.tree? id = before.tree? id := by
  obtain ⟨tree, found⟩ := ordered.founded.tree?_found id
  rw [found]
  exact ordered.treeFrom?_of_grown grown (Nat.succ_le_succ grown.length_le) inside found

end KernelIR.Pool
