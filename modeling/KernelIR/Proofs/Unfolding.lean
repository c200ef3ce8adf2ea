import KernelIR.Graph.Equality
import KernelIR.Proofs.Forwarding

/-!
Values unfolded into trees. A tree says what a value computes and of what type it is, and has the
trees of its operands as children; it does not say where the values are and to which blocks they
belong. In a graph whose values are made of older ones every value is what its kind, its type and
the trees of its operands say, and nothing that is added later changes that. Main statement: in such
a graph the comparison of two values ends, and it finds them the same exactly if their trees are
equal.
-/

set_option autoImplicit false

namespace KernelIR

-- Powers are those of the core library, whatever else is in scope.
attribute [local instance (2000)] instPowNat

inductive ValueTree where
  | null (type : TypeId)
  | parameter (index : Nat) (type : TypeId)
  | constant (value : Constant) (type : TypeId)
  | write (path : Path) (type : TypeId) (object value : ValueTree)
  | read (path : Path) (type : TypeId) (object : ValueTree)
deriving DecidableEq

/-- The tree of a value, given the trees of its operands. -/
def ValueKind.unfold (operand : ValueId → ValueTree) (type : TypeId) : ValueKind → ValueTree
  | .null => .null type
  | .parameter index => .parameter index type
  | .constant value => .constant value type
  | .write object path value => .write path type (operand object) (operand value)
  | .read object path => .read path type (operand object)

theorem ValueKind.unfold_congr {operand other : ValueId → ValueTree} (type : TypeId)
    (kind : ValueKind) (agree : ∀ used ∈ kind.operands, operand used = other used) :
    kind.unfold operand type = kind.unfold other type := by
  cases kind with
  | write object path value =>
      have sameObject := agree object List.mem_cons_self
      have sameValue := agree value (List.mem_cons_of_mem _ List.mem_cons_self)
      simp only [unfold, sameObject, sameValue]
  | read object path =>
      have sameObject := agree object List.mem_cons_self
      simp only [unfold, sameObject]
  | _ => rfl

theorem ValueKind.unfold_eq_iff (tree : ValueId → ValueTree) (type other : TypeId)
    (kind twin : ValueKind) :
    kind.unfold tree type = twin.unfold tree other ↔ type = other ∧
      ∃ pairs, kind.pairs? twin = some pairs ∧ ∀ pair ∈ pairs, tree pair.1 = tree pair.2 := by
  cases kind with
  | null => cases twin <;> simp [unfold, pairs?]
  | parameter index => cases twin <;> simp [unfold, pairs?, and_comm]
  | constant value => cases twin <;> simp [unfold, pairs?, and_comm]
  | write object path value =>
      cases twin with
      | write version place stored =>
          by_cases paths : path = place
          · simp [unfold, pairs?, paths, and_comm, -Prod.forall]
          · simp [unfold, pairs?, paths]
      | _ => simp [unfold, pairs?]
  | read object path =>
      cases twin with
      | read version place =>
          by_cases paths : path = place
          · simp [unfold, pairs?, paths]
          · simp [unfold, pairs?, paths]
      | _ => simp [unfold, pairs?]

theorem ValueKind.pairs_operands {kind twin : ValueKind} {pairs : List (ValueId × ValueId)}
    (found : kind.pairs? twin = some pairs) :
    pairs.length ≤ 2 ∧ ∀ pair ∈ pairs, pair.1 ∈ kind.operands ∧ pair.2 ∈ twin.operands := by
  unfold pairs? at found
  split at found
  · cases found
    simp
  · split at found <;> cases found
    simp
  · split at found <;> cases found
    simp
  · split at found <;> cases found
    simp [operands]
  · split at found <;> cases found
    simp [operands]
  · cases found

namespace Graph

def treeAfter (earlier : List ValueTree) (value : Value) : ValueTree :=
  value.kind.unfold (fun id => earlier.getD id (.null 0)) value.type

def trees (graph : Graph) : List ValueTree := inOrder treeAfter graph.values

def tree (graph : Graph) (id : ValueId) : ValueTree := graph.trees.getD id (.null 0)

variable {graph : Graph}

theorem Backward.tree_of_stored (backward : graph.Backward) {id : ValueId} {value : Value}
    (stored : graph.values[id]? = some value) :
    graph.tree id = value.kind.unfold graph.tree value.type := by
  have made : graph.kind? id = some value.kind := congrArg (Option.map Value.kind) stored
  have inside := Nat.le_of_lt (lt_of_stored stored)
  rw [tree, List.getD_eq_getElem?_getD, trees, in_order_stored treeAfter stored, Option.getD_some]
  apply ValueKind.unfold_congr
  intro used member
  exact in_order_take_getD treeAfter (backward id _ made used member) inside (.null 0)

theorem tree_of_grown {later : Graph} (grown : graph.values <+: later.values) {id : ValueId}
    (inside : id < graph.size) : later.tree id = graph.tree id := by
  have early : id < graph.trees.length := by
    rw [trees, in_order_length]
    exact inside
  exact getD_of_grown (in_order_of_grown treeAfter grown) early (.null 0)

/-- What is found out about two values in one round: their trees differ, or they are equal exactly if
those of the remaining operands are, which are at most two pairs of older values. -/
inductive Compared (graph : Graph) (a b : ValueId) : Option (List (ValueId × ValueId)) → Prop
  | apart (different : graph.tree a ≠ graph.tree b) : Compared graph a b none
  | operands {pairs : List (ValueId × ValueId)}
      (equal : graph.tree a = graph.tree b ↔
        ∀ pair ∈ pairs, graph.tree pair.1 = graph.tree pair.2)
      (few : pairs.length ≤ 2) (older : ∀ pair ∈ pairs, pair.1 < a ∧ pair.2 < b) :
      Compared graph a b (some pairs)

theorem pairs?_of_stored {a b : ValueId} {value twin : Value} (different : a ≠ b)
    (stored : graph.values[a]? = some value) (twinStored : graph.values[b]? = some twin) :
    graph.pairs? a b =
      .ok (if value.type = twin.type then value.kind.pairs? twin.kind else none) := by
  rw [pairs?, if_neg different, find_of_stored stored, find_of_stored twinStored]
  rfl

theorem Backward.pairs_compared (backward : graph.Backward) {a b : ValueId}
    (inside : a < graph.size) (within : b < graph.size) :
    ∃ found, graph.pairs? a b = .ok found ∧ graph.Compared a b found := by
  by_cases identical : a = b
  · subst identical
    exact ⟨some [], if_pos rfl, .operands (by simp) (by simp) (by simp)⟩
  · obtain ⟨value, stored⟩ := stored_of_lt inside
    obtain ⟨twin, twinStored⟩ := stored_of_lt within
    have made : graph.kind? a = some value.kind := congrArg (Option.map Value.kind) stored
    have again : graph.kind? b = some twin.kind := congrArg (Option.map Value.kind) twinStored
    have equal := ValueKind.unfold_eq_iff graph.tree value.type twin.type value.kind twin.kind
    rw [← backward.tree_of_stored stored, ← backward.tree_of_stored twinStored] at equal
    refine ⟨_, pairs?_of_stored identical stored twinStored, ?_⟩
    by_cases types : value.type = twin.type
    · rw [if_pos types]
      cases found : value.kind.pairs? twin.kind with
      | none =>
          apply Compared.apart
          intro same
          obtain ⟨-, pairs, listed, -⟩ := equal.mp same
          rw [found] at listed
          cases listed
      | some pairs =>
          obtain ⟨few, operands⟩ := ValueKind.pairs_operands found
          refine .operands ?_ few ?_
          · simpa [types, found] using equal
          · intro pair member
            obtain ⟨used, twinUsed⟩ := operands pair member
            exact ⟨backward a _ made _ used, backward b _ again _ twinUsed⟩
    · rw [if_neg types]
      exact .apart fun same => types (equal.mp same).1

def enoughRounds : List (ValueId × ValueId) → Nat
  | [] => 0
  | pair :: pairs => 2 ^ (pair.1 + 1) - 1 + enoughRounds pairs

theorem enoughRounds_append (pairs more : List (ValueId × ValueId)) :
    enoughRounds (pairs ++ more) = enoughRounds pairs + enoughRounds more := by
  induction pairs with
  | nil => exact (Nat.zero_add _).symm
  | cons pair pairs ih => rw [List.cons_append, enoughRounds, enoughRounds, ih, Nat.add_assoc]

theorem enoughRounds_le {a : ValueId} {pairs : List (ValueId × ValueId)}
    (older : ∀ pair ∈ pairs, pair.1 < a) :
    enoughRounds pairs ≤ pairs.length * (2 ^ a - 1) := by
  induction pairs with
  | nil => exact Nat.zero_le _
  | cons pair pairs ih =>
      rw [List.forall_mem_cons] at older
      have first := Nat.pow_le_pow_right Nat.two_pos (Nat.succ_le_of_lt older.1)
      rw [enoughRounds, List.length_cons, Nat.succ_mul, Nat.add_comm]
      exact Nat.add_le_add (ih older.2) (Nat.sub_le_sub_right first 1)

theorem enoughRounds_of_older {a : ValueId} {pairs : List (ValueId × ValueId)}
    (few : pairs.length ≤ 2) (older : ∀ pair ∈ pairs, pair.1 < a) :
    enoughRounds pairs < 2 ^ (a + 1) - 1 := by
  have total := enoughRounds_le older
  have bound := Nat.mul_le_mul_right (2 ^ a - 1) few
  have positive := Nat.two_pow_pos a
  have double : 2 ^ (a + 1) = 2 ^ a * 2 := Nat.pow_succ ..
  omega

/-- Each round keeps what the list says: that the trees of all its pairs are equal. -/
theorem Backward.sameAll_eq (backward : graph.Backward) (rounds : Nat)
    {pairs : List (ValueId × ValueId)}
    (inside : ∀ pair ∈ pairs, pair.1 < graph.size ∧ pair.2 < graph.size)
    (enough : enoughRounds pairs ≤ rounds) :
    graph.sameAll rounds pairs =
      .ok (decide (∀ pair ∈ pairs, graph.tree pair.1 = graph.tree pair.2)) := by
  induction rounds generalizing pairs with
  | zero =>
      cases pairs with
      | nil => rfl
      | cons pair pairs =>
          rw [enoughRounds] at enough
          have some : 1 < 2 ^ (pair.1 + 1) := Nat.one_lt_two_pow (Nat.succ_ne_zero pair.1)
          omega
  | succ rounds ih =>
      cases pairs with
      | nil => rfl
      | cons pair pairs =>
          rw [List.forall_mem_cons] at inside
          rw [enoughRounds] at enough
          obtain ⟨found, step, compared⟩ := backward.pairs_compared inside.1.1 inside.1.2
          rw [sameAll, step]
          simp only [List.forall_mem_cons]
          cases compared with
          | apart different =>
              rw [decide_eq_false fun same => different same.1]
              rfl
          | @operands operands equal few older =>
              have less := enoughRounds_of_older few fun pair member => (older pair member).1
              have remaining : ∀ pair ∈ operands ++ pairs,
                  pair.1 < graph.size ∧ pair.2 < graph.size := by
                rw [List.forall_mem_append]
                refine ⟨fun pair member => ?_, inside.2⟩
                have before := older pair member
                exact ⟨Nat.lt_trans before.1 inside.1.1, Nat.lt_trans before.2 inside.1.2⟩
              have kept := ih remaining (by rw [enoughRounds_append]; omega)
              simp only [List.forall_mem_append, ← equal] at kept
              exact kept

theorem Backward.same_eq (backward : graph.Backward) {a b : ValueId} (inside : a < graph.size)
    (within : b < graph.size) :
    graph.same a b = .ok (decide (graph.tree a = graph.tree b)) := by
  have few : a + 1 ≤ graph.size * graph.size + 1 :=
    Nat.succ_le_succ (Nat.le_trans (Nat.le_of_lt inside) (Nat.le_mul_self graph.size))
  have power := Nat.pow_le_pow_right Nat.two_pos few
  have enough : enoughRounds [(a, b)] ≤ 2 ^ (graph.size * graph.size + 1) := by
    rw [enoughRounds]
    exact Nat.le_trans (Nat.sub_le _ 1) power
  have compared := backward.sameAll_eq _ (List.forall_mem_singleton.mpr ⟨inside, within⟩) enough
  simp only [List.forall_mem_singleton] at compared
  exact compared

/-- A graph that is found clean is made of values that refer backwards. In every graph of that kind
a value unfolds to its own kind and type with the trees of its operands; the comparison of two
values ends, and it finds them the same exactly if their trees are equal. So it is an
equivalence. -/
theorem comparison_decides_equal_trees (graph : Graph) :
    (∀ pool, graph.verify pool = [] → graph.Backward) ∧
      (graph.Backward →
        (∀ (id : ValueId) (value : Value), graph.values[id]? = some value →
          graph.tree id = value.kind.unfold graph.tree value.type) ∧
        (∀ a b, a < graph.size → b < graph.size →
          graph.same a b = .ok (decide (graph.tree a = graph.tree b))) ∧
        (∀ a, a < graph.size → graph.same a a = .ok true) ∧
        (∀ a b, a < graph.size → b < graph.size → graph.same a b = graph.same b a) ∧
        ∀ a b c, a < graph.size → b < graph.size → c < graph.size → graph.same a b = .ok true →
          graph.same b c = .ok true → graph.same a c = .ok true) := by
  refine ⟨fun pool clean => ((verify_eq_nil_iff graph pool).mp clean).backward, ?_⟩
  intro backward
  refine ⟨fun id value => backward.tree_of_stored, fun a b => backward.same_eq, ?_, ?_, ?_⟩
  · intro a inside
    rw [backward.same_eq inside inside, decide_eq_true rfl]
  · intro a b inside within
    rw [backward.same_eq inside within, backward.same_eq within inside]
    exact congrArg Except.ok (decide_eq_decide.mpr eq_comm)
  · intro a b c aInside bInside cInside first second
    rw [backward.same_eq aInside bInside, Except.ok.injEq, decide_eq_true_eq] at first
    rw [backward.same_eq bInside cInside, Except.ok.injEq, decide_eq_true_eq] at second
    rw [backward.same_eq aInside cInside, decide_eq_true (first.trans second)]

/-- Two defaults of a pair are written in the same way in two blocks. The versions of one are the
versions of the other; a version that has the halves in the other order is another one. -/
theorem versions_of_two_defaults_are_the_same :
    let graph : Graph :=
      ⟨[⟨.parameter 0, 4, 0⟩, ⟨.null, 9, 0⟩, ⟨.null, 9, 1⟩, ⟨.write 1 [0] 0, 9, 0⟩,
        ⟨.write 2 [0] 0, 9, 1⟩, ⟨.write 3 [1] 0, 9, 0⟩, ⟨.write 4 [1] 0, 9, 1⟩,
        ⟨.write 2 [1] 0, 9, 1⟩, ⟨.write 7 [0] 0, 9, 0⟩], [[0, 1, 3, 5, 8], [2, 4, 6, 7]], 1⟩
    graph.verify (Pool.scalars.intern [4, 4]).2 = [] ∧ graph.same 5 6 = .ok true ∧
      graph.same 5 8 = .ok false ∧ graph.same 8 5 = .ok false ∧ graph.same 6 6 = .ok true := by
  intro graph
  have clean : graph.verify (Pool.scalars.intern [4, 4]).2 = [] := by decide
  have compared := comparison_decides_equal_trees graph
  have backward := compared.1 _ clean
  obtain ⟨-, decided, reflexive, symmetric, -⟩ := compared.2 backward
  have equal : graph.tree 5 = graph.tree 6 := rfl
  have apart : graph.tree 5 ≠ graph.tree 8 := by decide
  have same := decided 5 6 (by decide) (by decide)
  have different := decided 5 8 (by decide) (by decide)
  rw [decide_eq_true equal] at same
  rw [decide_eq_false apart] at different
  have reversed := (symmetric 8 5 (by decide) (by decide)).trans different
  exact ⟨clean, same, different, reversed, reflexive 6 (by decide)⟩

end Graph

end KernelIR
