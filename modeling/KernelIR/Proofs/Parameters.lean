import KernelIR.Proofs.Forwarding

/-!
The parameters of a graph. The signature lists them with their indices and types. Where parameters
are numbered in the order of their creation an index belongs to one parameter only, so graphs with
the same signature can be given the same data, whatever else the graphs are made of.
-/

set_option autoImplicit false

namespace KernelIR.Graph

def signature (graph : Graph) : List (Nat × TypeId) :=
  graph.values.filterMap fun value =>
    match value.kind with
    | .parameter index => some (index, value.type)
    | _ => none

/-- The indices are counted up from zero. -/
def Numbered (graph : Graph) : Prop :=
  graph.signature.map Prod.fst = List.range graph.params

theorem signature_append (graph : Graph) (kind : ValueKind) (type : TypeId) (block : BlockId) :
    (graph.append kind type block).signature =
      graph.signature ++
        match kind with
        | .parameter index => [(index, type)]
        | _ => [] := by
  unfold signature append
  rw [List.filterMap_append]
  cases kind <;> rfl

theorem signature_append_plain (graph : Graph) {kind : ValueKind} (type : TypeId) (block : BlockId)
    (plain : ∀ index, kind ≠ .parameter index) :
    (graph.append kind type block).signature = graph.signature := by
  rw [signature_append]
  cases kind with
  | parameter index => exact absurd rfl (plain index)
  | _ => exact List.append_nil _

theorem mem_signature_iff (graph : Graph) (index : Nat) (type : TypeId) :
    (index, type) ∈ graph.signature ↔
      ∃ id, graph.kind? id = some (.parameter index) ∧ graph.type? id = some type := by
  unfold signature
  rw [List.mem_filterMap]
  constructor
  · rintro ⟨⟨kind, own, block⟩, member, listed⟩
    obtain ⟨id, stored⟩ := List.mem_iff_getElem?.mp member
    cases kind with
    | parameter number =>
        cases listed
        exact ⟨id, congrArg (Option.map Value.kind) stored,
          (type?_eq_some_iff graph id own).mpr ⟨_, stored, rfl⟩⟩
    | _ => cases listed
  · rintro ⟨id, made, typed⟩
    obtain ⟨value, stored, rfl⟩ := (type?_eq_some_iff graph id type).mp typed
    obtain ⟨other, again, kind⟩ := Option.map_eq_some_iff.mp made
    rw [stored] at again
    cases again
    refine ⟨value, List.mem_of_getElem? stored, ?_⟩
    rw [kind]

variable {graph left right : Graph} {pool : Pool} {own : Assignment}

theorem Numbered.pairwise (numbered : graph.Numbered) :
    graph.values.Pairwise fun value other =>
      ∀ index, value.kind = .parameter index → other.kind ≠ .parameter index := by
  have distinct : (graph.signature.map Prod.fst).Nodup := numbered ▸ List.nodup_range
  have apart := List.pairwise_filterMap.mp (List.pairwise_map.mp distinct)
  apply apart.imp
  intro value other different index made twice
  have listed := different (index, value.type) (by rw [made])
  exact listed (index, other.type) (by rw [twice]) rfl

theorem Numbered.next (numbered : graph.Numbered) (type : TypeId) (block : BlockId) :
    (graph.append (.parameter graph.params) type block).signature.map Prod.fst =
      List.range (graph.params + 1) := by
  rw [signature_append, List.map_append, numbered]
  exact List.range_succ.symm

theorem Numbered.eq_of_index (numbered : graph.Numbered) {id other : ValueId} {index : Nat}
    (made : graph.kind? id = some (.parameter index))
    (twice : graph.kind? other = some (.parameter index)) : id = other := by
  obtain ⟨value, stored, kind⟩ := Option.map_eq_some_iff.mp made
  obtain ⟨second, otherStored, otherKind⟩ := Option.map_eq_some_iff.mp twice
  obtain ⟨inside, rfl⟩ := List.getElem?_eq_some_iff.mp stored
  obtain ⟨otherInside, rfl⟩ := List.getElem?_eq_some_iff.mp otherStored
  have apart := List.pairwise_iff_getElem.mp numbered.pairwise
  rcases Nat.lt_trichotomy id other with before | same | after
  · exact absurd otherKind (apart id other inside otherInside before index kind)
  · exact same
  · exact absurd kind (apart other id otherInside inside after index otherKind)

def parameterAt (graph : Graph) (index : Nat) : ValueId :=
  graph.values.findIdx fun value => value.kind = .parameter index

theorem Numbered.parameterAt_eq (numbered : graph.Numbered) {id : ValueId} {index : Nat}
    (made : graph.kind? id = some (.parameter index)) : graph.parameterAt index = id := by
  obtain ⟨value, stored, kind⟩ := Option.map_eq_some_iff.mp made
  have inside : graph.parameterAt index < graph.values.length :=
    List.findIdx_lt_length_of_exists ⟨value, List.mem_of_getElem? stored, decide_eq_true kind⟩
  have found : graph.values[graph.parameterAt index].kind = .parameter index :=
    of_decide_eq_true (List.findIdx_getElem (w := inside))
  apply numbered.eq_of_index _ made
  exact Option.map_eq_some_iff.mpr ⟨_, List.getElem?_eq_getElem inside, found⟩

def SameInputs (left right : Graph) (own other : Assignment) : Prop :=
  ∀ (index : Nat) (id twin : ValueId), left.kind? id = some (.parameter index) →
    right.kind? twin = some (.parameter index) → own id = other twin

/-- What the parameters of one graph are given, handed to those of the other. -/
def handedOver (left right : Graph) (own : Assignment) : Assignment := fun twin =>
  match right.kind? twin with
  | some (.parameter index) => own (left.parameterAt index)
  | _ => .void

theorem Numbered.handedOver_same (numbered : left.Numbered) (own : Assignment) :
    SameInputs left right own (handedOver left right own) := by
  intro index id twin made twinMade
  unfold handedOver
  rw [twinMade]
  exact congrArg own (numbered.parameterAt_eq made).symm

/-- Data for the parameters of one graph are data for those of every graph with its signature. -/
theorem Assigns.handedOver (assigns : left.Assigns pool own) (numbered : left.Numbered)
    (same : left.signature = right.signature) :
    right.Assigns pool (left.handedOver right own) := by
  intro twin value index stored parameter
  have twinMade : right.kind? twin = some (.parameter index) :=
    Option.map_eq_some_iff.mpr ⟨value, stored, parameter⟩
  have twinTyped : right.type? twin = some value.type :=
    (type?_eq_some_iff right twin _).mpr ⟨value, stored, rfl⟩
  have listed : (index, value.type) ∈ left.signature :=
    same ▸ (mem_signature_iff right index value.type).mpr ⟨twin, twinMade, twinTyped⟩
  obtain ⟨id, made, typed⟩ := (mem_signature_iff left index value.type).mp listed
  obtain ⟨source, sourceStored, kind⟩ := Option.map_eq_some_iff.mp made
  obtain ⟨again, againStored, type⟩ := (type?_eq_some_iff left id value.type).mp typed
  rw [sourceStored] at againStored
  cases againStored
  rw [← numbered.handedOver_same own index id twin made twinMade, ← type]
  exact assigns id source index sourceStored kind

end KernelIR.Graph
