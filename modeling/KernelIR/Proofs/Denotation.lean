import KernelIR.Proofs.Data
import KernelIR.Proofs.Validity

/-!
What the values of a graph stand for, given data for its parameters. In a valid graph over an
ordered pool every value stands for an instance of its type, and neither types nor values that are
added later change what it stands for.
-/

set_option autoImplicit false

namespace KernelIR

/-- Data for the parameters of a graph, by the position of the parameter. -/
abbrev Assignment := ValueId → Datum

/-- What a value at a position stands for, given what its operands stand for. -/
def Value.meaning (pool : Pool) (parameters : Assignment) (id : ValueId)
    (operand : ValueId → Datum) (value : Value) : Datum :=
  match value.kind with
  | .null => pool.defaultOf value.type
  | .parameter _ => parameters id
  | .constant constant => .scalar constant
  | .write object path stored => (operand object).put path (operand stored)
  | .read object path => ((operand object).at? path).getD .void

def Value.meaningAfter (pool : Pool) (parameters : Assignment) (earlier : List Datum)
    (value : Value) : Datum :=
  value.meaning pool parameters earlier.length fun id => earlier.getD id .void

theorem Value.meaning_congr (pool : Pool) (parameters : Assignment) (id : ValueId)
    {operand other : ValueId → Datum} (value : Value)
    (agree : ∀ used ∈ value.kind.operands, operand used = other used) :
    value.meaning pool parameters id operand = value.meaning pool parameters id other := by
  obtain ⟨kind, type, block⟩ := value
  cases kind with
  | null => rfl
  | parameter index => rfl
  | constant constant => rfl
  | write object path stored =>
      have sameObject := agree object List.mem_cons_self
      have sameStored := agree stored (List.mem_cons_of_mem _ List.mem_cons_self)
      simp only [meaning, sameObject, sameStored]
  | read object path =>
      have sameObject := agree object List.mem_cons_self
      simp only [meaning, sameObject]

namespace Graph

def meanings (graph : Graph) (pool : Pool) (parameters : Assignment) : List Datum :=
  inOrder (Value.meaningAfter pool parameters) graph.values

def denote (graph : Graph) (pool : Pool) (parameters : Assignment) (id : ValueId) : Datum :=
  (graph.meanings pool parameters).getD id .void

def Assigns (graph : Graph) (pool : Pool) (parameters : Assignment) : Prop :=
  ∀ (id : ValueId) (value : Value) (index : Nat), graph.values[id]? = some value →
    value.kind = .parameter index → Datum.HasType pool (parameters id) value.type

variable {graph : Graph} {pool : Pool} {parameters : Assignment}

theorem Assigns.of_later {later : Graph} {laterPool : Pool} (valid : graph.Valid pool)
    (ordered : pool.Ordered) (grown : graph.values <+: later.values)
    (types : pool.types <+: laterPool.types) (assigns : later.Assigns laterPool parameters) :
    graph.Assigns pool parameters := by
  intro id value index stored parameter
  have typed := assigns id value index (stored_of_grown grown stored) parameter
  exact typed.of_later ordered types (valid id value stored).known

def defaultInputs (graph : Graph) (pool : Pool) : Assignment := fun id =>
  ((graph.type? id).map pool.defaultOf).getD .void

theorem Valid.defaultInputs_assigns (valid : graph.Valid pool) (ordered : pool.Ordered) :
    graph.Assigns pool (graph.defaultInputs pool) := by
  intro id value index stored _
  have typed : graph.type? id = some value.type :=
    (type?_eq_some_iff graph id _).mpr ⟨value, stored, rfl⟩
  unfold defaultInputs
  rw [typed, Option.map_some, Option.getD_some]
  exact ordered.defaultOf_typed value.type (valid id value stored).known

/-- A value whose operands are older stands for what it computes from them. -/
theorem denote_of_stored {id : ValueId} {value : Value} (stored : graph.values[id]? = some value)
    (older : ∀ operand ∈ value.kind.operands, operand < id) :
    graph.denote pool parameters id =
      value.meaning pool parameters id (graph.denote pool parameters) := by
  have inside := Nat.le_of_lt (lt_of_stored stored)
  have length : (graph.values.take id).length = id := by
    rw [List.length_take]
    omega
  have computed := in_order_stored (Value.meaningAfter pool parameters) stored
  rw [denote, List.getD_eq_getElem?_getD, meanings, computed, Option.getD_some,
    Value.meaningAfter, in_order_length, length]
  apply Value.meaning_congr
  intro used member
  exact in_order_take_getD _ (older used member) inside Datum.void

theorem Valid.denote_of_stored (valid : graph.Valid pool) {id : ValueId} {value : Value}
    (stored : graph.values[id]? = some value) :
    graph.denote pool parameters id =
      value.meaning pool parameters id (graph.denote pool parameters) :=
  Graph.denote_of_stored stored (valid id value stored).older

theorem Valid.denote_typed (valid : graph.Valid pool) (ordered : pool.Ordered)
    (assigns : graph.Assigns pool parameters) (id : ValueId) (type : TypeId)
    (found : graph.type? id = some type) :
    Datum.HasType pool (graph.denote pool parameters id) type := by
  -- On the position: operands are older, and the older values are those of smaller positions.
  induction id using Nat.strongRecOn generalizing type with
  | ind id ih =>
      obtain ⟨value, stored, rfl⟩ := (type?_eq_some_iff graph id type).mp found
      have lawful := valid id value stored
      rw [valid.denote_of_stored stored]
      obtain ⟨kind, type, block⟩ := value
      cases kind with
      | null => exact ordered.defaultOf_typed type lawful.known
      | parameter index => exact assigns id _ index stored rfl
      | constant constant =>
          have same : type = constant.type.id := lawful.typed
          subst same
          exact .scalar (ordered.scalar_stored constant.type)
      | write object path part =>
          obtain ⟨whole, field, partType, resolved⟩ := lawful.typed
          have reached := ((Pool.resolve_eq_ok_iff pool type field path).mp resolved).2
          have objectOlder := lawful.older object List.mem_cons_self
          have partOlder := lawful.older part (List.mem_cons_of_mem _ List.mem_cons_self)
          exact (ih object objectOlder type whole).put reached (ih part partOlder field partType)
      | read object path =>
          obtain ⟨whole, objectType, resolved⟩ := lawful.typed
          have reached := ((Pool.resolve_eq_ok_iff pool whole type path).mp resolved).2
          have objectOlder := lawful.older object List.mem_cons_self
          obtain ⟨part, present, partTyped⟩ := (ih object objectOlder whole objectType).at? reached
          simp only [Value.meaning, present, Option.getD_some]
          exact partTyped

theorem Valid.denote_of_grown (valid : graph.Valid pool) {later : Graph} {laterPool : Pool}
    (grown : graph.values <+: later.values) (types : pool.types <+: laterPool.types) {id : ValueId}
    (inside : id < graph.size) :
    later.denote laterPool parameters id = graph.denote pool parameters id := by
  have same : graph.meanings laterPool parameters = graph.meanings pool parameters := by
    apply in_order_congr
    intro value member earlier
    obtain ⟨position, stored⟩ := List.mem_iff_getElem?.mp member
    have known := (valid position value stored).known
    obtain ⟨kind, type, block⟩ := value
    cases kind with
    | null => exact Pool.defaultOf_of_grown types known
    | _ => rfl
  have early : id < (graph.meanings pool parameters).length := by
    rw [meanings, in_order_length]
    exact inside
  have kept : graph.meanings laterPool parameters <+: later.meanings laterPool parameters :=
    in_order_of_grown (Value.meaningAfter laterPool parameters) grown
  rw [same] at kept
  exact getD_of_grown kept early .void

end Graph

end KernelIR
