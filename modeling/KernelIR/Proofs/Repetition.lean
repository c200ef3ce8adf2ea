import KernelIR.Proofs.Assembly
import KernelIR.Proofs.Sharing
import KernelIR.Proofs.Stability
import Mathlib

/-!
Conversions that are made again. With a factory that makes one constant of each leaf, an instance
has a tree in every pool that has the types of its composites; in which graph it is, and what the
state of the factory is, does not matter to the tree. A conversion gives a value with the tree that
the instance has in the pool that the conversion leaves. Where the instance has a tree already, a
conversion ends well and adds no type. Main statement: after any further calls an instance that was
converted is converted again, to a value of the same type that is found the same as the first one.
-/

set_option autoImplicit false

namespace KernelIR

namespace ValueTree

def written (type : TypeId) : ValueTree → Nat → List ValueTree → ValueTree
  | object, _, [] => object
  | object, index, part :: parts =>
      written type (.write [index] type object part) (index + 1) parts

/-- A structure that was made of its parts. -/
def ofParts (type : TypeId) (parts : List ValueTree) : ValueTree :=
  written type (.null type) 0 parts

end ValueTree

namespace Graph

variable {graph : Graph} {values : List ValueId}

theorem trees_of_grown {later : Graph} (grown : graph.values <+: later.values)
    (inside : ∀ value ∈ values, value < graph.size) :
    values.map later.tree = values.map graph.tree :=
  List.map_congr_left fun value member => tree_of_grown grown (inside value member)

theorem Backward.types_of_trees (backward : graph.Backward)
    (inside : ∀ value ∈ values, value < graph.size) :
    values.map graph.type? = ((values.map graph.tree).map ValueTree.type).map some := by
  rw [List.map_map, List.map_map]
  exact List.map_congr_left fun value member => backward.tree_type (inside value member)

end Graph

namespace Builder

variable {builder : Builder} {values : List ValueId}

theorem appended_tree (backward : builder.graph.Backward) {kind : ValueKind}
    (older : ∀ operand ∈ kind.operands, operand < builder.graph.size) (type : TypeId) :
    (builder.appended kind type).graph.tree builder.graph.size =
      kind.unfold builder.graph.tree type := by
  have grown := appended_grows builder kind type
  have nextBackward : (builder.appended kind type).graph.Backward :=
    backward.append older type builder.block
  rw [nextBackward.tree_of_stored (appended_stored builder kind type)]
  exact ValueKind.unfold_congr type kind fun used member =>
    Graph.tree_of_grown grown (older used member)

theorem fieldWrites_tree (backward : builder.graph.Backward) {object index : Nat} (type : TypeId)
    (newest : builder.graph.size = object + 1)
    (inside : ∀ value ∈ values, value < builder.graph.size) :
    (builder.appendedAll type (fieldWrites object index values)).graph.tree
        (object + values.length) =
      .written type (builder.graph.tree object) index (values.map builder.graph.tree) := by
  induction values generalizing builder object index with
  | nil => rfl
  | cons value values ih =>
      rw [List.forall_mem_cons] at inside
      obtain ⟨valueInside, others⟩ := inside
      let write : ValueKind := .write object [index] value
      let next : Builder := builder.appended write type
      have grown : builder.graph.values <+: next.graph.values := appended_grows builder write type
      have objectInside : object < builder.graph.size := newest ▸ Nat.lt_succ_self object
      have older : ∀ operand ∈ write.operands, operand < builder.graph.size :=
        List.forall_mem_cons.mpr ⟨objectInside, List.forall_mem_singleton.mpr valueInside⟩
      have nextBackward : next.graph.Backward := backward.append older type builder.block
      have made : next.graph.tree (object + 1) = write.unfold builder.graph.tree type :=
        newest ▸ appended_tree backward older type
      have nextNewest : next.graph.size = object + 1 + 1 := by
        rw [← newest]
        exact appended_size builder write type
      have stillInside : ∀ other ∈ values, other < next.graph.size := fun other member =>
        Nat.lt_of_lt_of_le (others other member) grown.length_le
      have rest : (next.appendedAll type (fieldWrites (object + 1) (index + 1) values)).graph.tree
          (object + 1 + values.length) = _ := ih nextBackward nextNewest stillInside
      rw [Graph.trees_of_grown grown others, made] at rest
      rw [fieldWrites_cons, List.length_cons, Nat.add_comm values.length, ← Nat.add_assoc]
      exact rest

theorem withRecord_tree (backward : builder.graph.Backward)
    (inside : ∀ value ∈ values, value < builder.graph.size) (types : List TypeId) :
    (builder.withRecord types values).graph.tree (builder.graph.size + values.length) =
      .ofParts (builder.pool.intern types).1 (values.map builder.graph.tree) := by
  let begun : Builder := { builder with pool := (builder.pool.intern types).2 }
  let type : TypeId := (builder.pool.intern types).1
  let next : Builder := begun.appended .null type
  have begunBackward : begun.graph.Backward := backward
  have grown : builder.graph.values <+: next.graph.values := appended_grows begun .null type
  have none : ∀ operand ∈ ValueKind.null.operands, operand < begun.graph.size :=
    List.forall_mem_nil _
  have nextBackward : next.graph.Backward := backward.append none type builder.block
  have made : next.graph.tree builder.graph.size = .null type :=
    appended_tree begunBackward none type
  have newest : next.graph.size = builder.graph.size + 1 := appended_size begun .null type
  have stillInside : ∀ value ∈ values, value < next.graph.size := fun value member =>
    Nat.lt_of_lt_of_le (inside value member) grown.length_le
  have written : (builder.withRecord types values).graph.tree
      (builder.graph.size + values.length) = _ :=
    fieldWrites_tree nextBackward type newest stillInside
  rw [Graph.trees_of_grown grown inside, made] at written
  exact written

end Builder

namespace Host

variable {τ α : Type} {given : Builder → TypeId → Prop} {factory : Factory τ α}
  {value : α → Constant}

/-- Each leaf is made into one constant, which depends on nothing but the leaf. What the factory
does with its own state is left open. -/
def MakesConstants (factory : Factory τ α) (value : α → Constant) : Prop :=
  ∀ leaf start, ∃ tally, factory leaf start =
    Build.onSecond (Builder.constant (value leaf)) (tally, start.2)

mutual

/-- The tree of an instance, over a pool that has the types of all its composites. -/
def treeIn? (value : α → Constant) (pool : Pool) : Host α → Option ValueTree
  | .primitive leaf => some (.constant (value leaf) (value leaf).type.id)
  | .enumeration leaf => some (.constant (value leaf) (value leaf).type.id)
  | .composite declared fields =>
      if declared ≤ fieldLimit then do
        let parts ← treesIn? value pool declared fields
        let type ← pool.interned.lookup (parts.map ValueTree.type)
        return .ofParts type parts
      else none
  | .null | .reference _ | .array _ => none

def treesIn? (value : α → Constant) (pool : Pool) : Nat → List (Host α) → Option (List ValueTree)
  | 0, _ => some []
  | _ + 1, [] => none
  | declared + 1, field :: fields => do
      let part ← treeIn? value pool field
      let parts ← treesIn? value pool declared fields
      return part :: parts

end

theorem treeIn?_composite_iff (pool : Pool) (declared : Nat) (fields : List (Host α))
    (tree : ValueTree) :
    treeIn? value pool (.composite declared fields) = some tree ↔
      declared ≤ fieldLimit ∧ ∃ parts type, treesIn? value pool declared fields = some parts ∧
        pool.interned.lookup (parts.map ValueTree.type) = some type ∧
          .ofParts type parts = tree := by
  rw [treeIn?]
  by_cases few : declared ≤ fieldLimit
  · simp [few, Option.bind_eq_some_iff]
  · simp [few]

theorem treesIn?_cons_iff (pool : Pool) (declared : Nat) (field : Host α) (fields : List (Host α))
    (trees : List ValueTree) :
    treesIn? value pool (declared + 1) (field :: fields) = some trees ↔
      ∃ part parts, treeIn? value pool field = some part ∧
        treesIn? value pool declared fields = some parts ∧ part :: parts = trees := by
  rw [treesIn?]
  simp [Option.bind_eq_some_iff]

mutual

theorem treeIn?_of_grown {before after : Pool} (grown : before.interned <+: after.interned)
    (host : Host α) {tree : ValueTree} (found : treeIn? value before host = some tree) :
    treeIn? value after host = some tree := by
  cases host with
  | composite declared fields =>
      obtain ⟨few, parts, type, inner, interned, made⟩ :=
        (treeIn?_composite_iff before declared fields tree).mp found
      exact (treeIn?_composite_iff after declared fields tree).mpr
        ⟨few, parts, type, treesIn?_of_grown grown declared fields inner,
          lookup_of_grown grown interned, made⟩
  | _ => exact found

theorem treesIn?_of_grown {before after : Pool} (grown : before.interned <+: after.interned)
    (declared : Nat) (fields : List (Host α)) {trees : List ValueTree}
    (found : treesIn? value before declared fields = some trees) :
    treesIn? value after declared fields = some trees := by
  cases declared with
  | zero =>
      rw [treesIn?] at found ⊢
      exact found
  | succ declared =>
      cases fields with
      | nil => cases found
      | cons field fields =>
          obtain ⟨part, parts, first, rest, made⟩ :=
            (treesIn?_cons_iff before declared field fields trees).mp found
          exact (treesIn?_cons_iff after declared field fields trees).mpr
            ⟨part, parts, treeIn?_of_grown grown field first,
              treesIn?_of_grown grown declared fields rest, made⟩

end

namespace MakesConstants

variable {start later : τ × Builder}

theorem made (makes : MakesConstants factory value)
    (placed : start.2.block < start.2.graph.blocks.length) (leaf : α) :
    ∃ tally, factory leaf start = .ok start.2.graph.size
      (tally, start.2.appended (.constant (value leaf)) (value leaf).type.id) := by
  obtain ⟨tally, same⟩ := makes leaf start
  have added := Builder.append_of_placed placed (.constant (value leaf)) (value leaf).type.id
  refine ⟨tally, same.trans ?_⟩
  rw [Build.onSecond_apply, Builder.constant, added]

theorem acts (makes : MakesConstants factory value) (host : Host α) (start : τ × Builder) :
    ActsByRuns given factory host start := by
  intro leaf asked answered _ ended
  obtain ⟨tally, same⟩ := makes leaf asked
  rw [same] at ended
  exact constants_act value (.primitive leaf) (tally, asked.2) leaf (tally, asked.2) answered
    ⟨rfl, rfl⟩ ended

theorem reaches (makes : MakesConstants factory value) {host : Host α} {result : ValueId}
    (ok : convert factory host start = .ok result later) : Reaches given start.2 later.2 := by
  obtain ⟨tally, builder⟩ := start
  apply Reaches.conversion (.start builder) (makes.acts host (tally, builder))
  rw [embed_apply, ok]
  rfl

theorem fields_reach (makes : MakesConstants factory value) {declared : Nat}
    {fields : List (Host α)} {values : List ValueId}
    (ok : convertFields factory declared fields start = .ok values later) :
    Reaches given start.2 later.2 := by
  induction declared generalizing fields start values with
  | zero =>
      unfold convertFields at ok
      cases ok
      exact .start _
  | succ declared ih =>
      cases fields with
      | nil =>
          unfold convertFields at ok
          cases ok
      | cons field fields =>
          unfold convertFields at ok
          obtain ⟨first, middle, converted, rest⟩ := Build.bind_eq_ok ok
          obtain ⟨others, last, remaining, same⟩ := Build.bind_eq_ok rest
          cases same
          exact (makes.reaches converted).trans (ih remaining)

end MakesConstants

theorem leaf_tree (makes : MakesConstants factory value) {start : τ × Builder}
    (reached : Reaches given Builder.empty start.2) (leaf : α) :
    ∃ result later, factory leaf start = .ok result later ∧ later.2.pool = start.2.pool ∧
      result < later.2.graph.size ∧
      later.2.graph.tree result = .constant (value leaf) (value leaf).type.id := by
  obtain ⟨tally, made⟩ := makes.made reached.tidy.placed leaf
  refine ⟨_, _, made, rfl, ?_, ?_⟩
  · rw [Builder.appended_size]
    exact Nat.lt_succ_self _
  · exact Builder.appended_tree reached.coherent.backward (List.forall_mem_nil _) _

mutual

theorem convert_tree (makes : MakesConstants factory value) (host : Host α)
    {start later : τ × Builder} {result : ValueId} (reached : Reaches given Builder.empty start.2)
    (ok : convert factory host start = .ok result later) :
    result < later.2.graph.size ∧
      treeIn? value later.2.pool host = some (later.2.graph.tree result) := by
  cases host with
  | primitive leaf =>
      obtain ⟨_, _, made, -, inside, tree⟩ := leaf_tree makes reached leaf
      cases made.symm.trans ok
      exact ⟨inside, congrArg some tree.symm⟩
  | enumeration leaf =>
      obtain ⟨_, _, made, -, inside, tree⟩ := leaf_tree makes reached leaf
      cases made.symm.trans ok
      exact ⟨inside, congrArg some tree.symm⟩
  | null => cases ok
  | reference typeName => cases ok
  | array typeName => cases ok
  | composite declared fields =>
      unfold convert at ok
      split at ok
      · next few =>
          obtain ⟨values, middle, converted, rest⟩ := Build.bind_eq_ok ok
          obtain ⟨inside, inner⟩ := convertFields_tree makes declared fields reached converted
          have reachedMiddle := reached.trans (makes.fields_reach converted)
          have tidy := reachedMiddle.tidy
          have backward := reachedMiddle.coherent.backward
          obtain ⟨assembled, -⟩ := Build.onSecond_eq_ok rest
          obtain ⟨types, typed, known, rfl, last⟩ :=
            Builder.assemble_eq_ok tidy.placed tidy.wellFormed assembled
          have ofTrees := (backward.types_of_trees inside).symm.trans typed
          have sameTypes := List.map_injective_iff.mpr (fun _ _ => Option.some.inj) ofTrees
          have wellFormed := tidy.wellFormed.intern known
          have interned := (wellFormed.lookup_eq_some_iff types _).mpr
            (Pool.intern_stored middle.2.pool types wellFormed)
          refine ⟨Builder.GivesValue.assemble values _ _ assembled, ?_⟩
          have pool := (Builder.withRecord_eq middle.2 types values).1
          rw [last, pool, Builder.withRecord_tree backward inside]
          rw [← sameTypes] at interned ⊢
          exact (treeIn?_composite_iff _ declared fields _).mpr ⟨few, _, _,
            treesIn?_of_grown (Pool.intern_grows _ _).2 declared fields inner, interned, rfl⟩
      · cases ok

theorem convertFields_tree (makes : MakesConstants factory value) (declared : Nat)
    (fields : List (Host α)) {start later : τ × Builder} {values : List ValueId}
    (reached : Reaches given Builder.empty start.2)
    (ok : convertFields factory declared fields start = .ok values later) :
    (∀ result ∈ values, result < later.2.graph.size) ∧
      treesIn? value later.2.pool declared fields = some (values.map later.2.graph.tree) := by
  cases declared with
  | zero =>
      unfold convertFields at ok
      cases ok
      rw [treesIn?]
      exact ⟨List.forall_mem_nil _, rfl⟩
  | succ declared =>
      cases fields with
      | nil =>
          unfold convertFields at ok
          cases ok
      | cons field fields =>
          unfold convertFields at ok
          obtain ⟨first, middle, converted, rest⟩ := Build.bind_eq_ok ok
          obtain ⟨others, last, remaining, same⟩ := Build.bind_eq_ok rest
          cases same
          have reachedMiddle := reached.trans (makes.reaches converted)
          obtain ⟨inside, tree⟩ := convert_tree makes field reached converted
          obtain ⟨othersInside, trees⟩ :=
            convertFields_tree makes declared fields reachedMiddle remaining
          have ran : Reaches given middle.2 later.2 := makes.fields_reach remaining
          -- The tree of the first field is carried over what the other fields add.
          have extended := (ran.keeps (Builder.extends_kept given) reachedMiddle.tidy).2
          have still := treeIn?_of_grown extended.interned field tree
          rw [← Graph.tree_of_grown extended.values inside] at still
          have stillInside := Nat.lt_of_lt_of_le inside extended.values.length_le
          exact ⟨List.forall_mem_cons.mpr ⟨stillInside, othersInside⟩,
            (treesIn?_cons_iff _ declared field fields _).mpr ⟨_, _, still, trees, rfl⟩⟩

end

mutual

/-- Where the instance has a tree already, a conversion gives a value with this tree and leaves the
pool as it is. -/
theorem convert_of_tree (makes : MakesConstants factory value) (host : Host α)
    {start : τ × Builder} {tree : ValueTree} (reached : Reaches given Builder.empty start.2)
    (found : treeIn? value start.2.pool host = some tree) :
    ∃ result later, convert factory host start = .ok result later ∧
      later.2.pool = start.2.pool ∧ later.2.graph.tree result = tree := by
  cases host with
  | primitive leaf =>
      obtain ⟨result, later, made, pool, -, same⟩ := leaf_tree makes reached leaf
      exact ⟨result, later, made, pool, same.trans (Option.some.inj found)⟩
  | enumeration leaf =>
      obtain ⟨result, later, made, pool, -, same⟩ := leaf_tree makes reached leaf
      exact ⟨result, later, made, pool, same.trans (Option.some.inj found)⟩
  | null => cases found
  | reference typeName => cases found
  | array typeName => cases found
  | composite declared fields =>
      obtain ⟨few, parts, type, inner, interned, rfl⟩ :=
        (treeIn?_composite_iff start.2.pool declared fields tree).mp found
      obtain ⟨values, ⟨tally, middle⟩, converted, pool, inside, trees⟩ :=
        convertFields_of_trees makes declared fields reached inner
      have reachedMiddle : Reaches given Builder.empty middle :=
        reached.trans (makes.fields_reach converted)
      have tidy := reachedMiddle.tidy
      have backward := reachedMiddle.coherent.backward
      have typed := backward.types_of_trees inside
      rw [trees] at typed
      rw [← pool] at interned
      have stored := tidy.wellFormed.stored_of_lookup interned
      have known : ∀ field ∈ parts.map ValueTree.type, field < middle.pool.size :=
        fun field member => Nat.lt_trans (tidy.wellFormed.ordered.older stored field member)
          (lt_of_stored stored)
      -- The type of the parts is there, so interning it once more only looks it up.
      have again := (tidy.wellFormed.intern_eq_self_iff (parts.map ValueTree.type) type).mpr stored
      have assembled := Builder.assemble_of_typed tidy.placed tidy.wellFormed typed known
      refine ⟨middle.graph.size + values.length,
        (tally, middle.withRecord (parts.map ValueTree.type) values), ?_, ?_, ?_⟩
      · unfold convert
        rw [if_pos few, Build.bind_apply, converted]
        simp only
        rw [Build.onSecond_apply, assembled]
      · have interned := (Builder.withRecord_eq middle (parts.map ValueTree.type) values).1
        rw [again] at interned
        exact interned.trans pool
      · rw [Builder.withRecord_tree backward inside, again, trees]

theorem convertFields_of_trees (makes : MakesConstants factory value) (declared : Nat)
    (fields : List (Host α)) {start : τ × Builder} {trees : List ValueTree}
    (reached : Reaches given Builder.empty start.2)
    (found : treesIn? value start.2.pool declared fields = some trees) :
    ∃ values later, convertFields factory declared fields start = .ok values later ∧
      later.2.pool = start.2.pool ∧ (∀ result ∈ values, result < later.2.graph.size) ∧
      values.map later.2.graph.tree = trees := by
  cases declared with
  | zero =>
      rw [treesIn?] at found
      cases found
      unfold convertFields
      exact ⟨[], start, rfl, rfl, List.forall_mem_nil _, rfl⟩
  | succ declared =>
      cases fields with
      | nil => cases found
      | cons field fields =>
          obtain ⟨part, parts, first, rest, rfl⟩ :=
            (treesIn?_cons_iff start.2.pool declared field fields trees).mp found
          obtain ⟨result, middle, converted, pool, tree⟩ :=
            convert_of_tree makes field reached first
          have reachedMiddle := reached.trans (makes.reaches converted)
          rw [← pool] at rest
          obtain ⟨values, last, remaining, poolLast, inside, others⟩ :=
            convertFields_of_trees makes declared fields reachedMiddle rest
          have ran : Reaches given middle.2 last.2 := makes.fields_reach remaining
          have grown := ran.keeps (Builder.grown_kept given)
          have resultInside := (convert_tree makes field reached converted).1
          refine ⟨result :: values, last, ?_, poolLast.trans pool, ?_, ?_⟩
          · unfold convertFields
            rw [Build.bind_apply, converted]
            simp only
            rw [Build.bind_apply, remaining]
            rfl
          · exact List.forall_mem_cons.mpr
              ⟨Nat.lt_of_lt_of_le resultInside grown.values.length_le, inside⟩
          · rw [List.map_cons, Graph.tree_of_grown grown.values resultInside, tree, others]

end

/-- In a run from the empty builder, let an instance be converted, with a factory that makes a
constant of each leaf. After any further calls it is converted again, whatever the state of the
factory is then: no type is added, and the value is of the type of the first one and is found the
same. -/
theorem conversion_gives_same_value_again (makes : MakesConstants factory value) {host : Host α}
    {tally : τ} {builder later : Builder} {first : ValueId} {after : τ × Builder}
    (reached : Reaches given Builder.empty builder)
    (ok : embed factory host (tally, builder) = .ok first after)
    (ran : Reaches given after.2 later) (other : τ) :
    ∃ second last, embed factory host (other, later) = .ok second last ∧
      last.2.pool = later.pool ∧
      (∃ type, after.2.graph.type? first = some type ∧ last.2.graph.type? second = some type) ∧
      last.2.graph.same second first = .ok true := by
  have converted := embed_eq_ok ok
  have reachedAfter : Reaches given Builder.empty after.2 :=
    reached.trans (makes.reaches converted)
  obtain ⟨inside, tree⟩ := convert_tree makes host reached converted
  have extended := (ran.keeps (Builder.extends_kept given) reachedAfter.tidy).2
  have still := treeIn?_of_grown extended.interned host tree
  -- The instance has a tree in the pool of the second conversion, since types are not taken back.
  let start : τ × Builder := (other, later)
  have reachedStart : Reaches given Builder.empty start.2 := reachedAfter.trans ran
  obtain ⟨second, last, again, pool, same⟩ := convert_of_tree makes host reachedStart still
  have ranLast : Reaches given start.2 last.2 := makes.reaches again
  have backward := (reachedStart.trans ranLast).coherent.backward
  have grown := (ran.trans ranLast).keeps (Builder.grown_kept given)
  have secondInside := (convert_tree makes host reachedStart again).1
  have firstInside := Nat.lt_of_lt_of_le inside grown.values.length_le
  refine ⟨second, last, ?_, pool, ⟨(after.2.graph.tree first).type, ?_, ?_⟩, ?_⟩
  · rw [embed_apply, again]
  · exact reachedAfter.coherent.backward.tree_type inside
  · rw [backward.tree_type secondInside, same]
  · have trees : last.2.graph.tree second = last.2.graph.tree first :=
      same.trans (Graph.tree_of_grown grown.values inside).symm
    rw [backward.same_eq secondInside firstInside, decide_eq_true trees]

/-- A record of a flag and of a record of another flag. Between its conversions, the second of which
is in another block, a conversion fails when it has added a type, and another structure gets the
handle of this type. -/
theorem nested_flags_are_converted_again :
    let factory : Factory Nat Bool := fun leaf start =>
      Build.onSecond (Builder.constant (.int1 leaf)) (start.1 + 1, start.2)
    let host : Host Bool := .composite 2 [.primitive true, .composite 1 [.enumeration false]]
    let broken : Host Bool := .composite 2 [.composite 2 [.primitive true, .primitive true], .null]
    ∃ after later last, embed factory host (0, Builder.empty) = .ok 6 (2, after) ∧
      embed factory broken (2, after) = .error .nullInstance (4, after) ∧
      Builder.recordType [4, 4] after = .ok 11 later ∧
      let inside : Builder := { later with graph := later.graph.addBlock, block := 1 }
      embed factory host (4, inside) = .ok 13 (6, last) ∧ last.pool = inside.pool ∧
        last.graph.same 13 6 = .ok true := by
  intro factory host broken
  let after : Builder :=
    ⟨⟨[⟨.constant (.int1 true), 1, 0⟩, ⟨.constant (.int1 false), 1, 0⟩, ⟨.null, 9, 0⟩,
      ⟨.write 2 [0] 1, 9, 0⟩, ⟨.null, 10, 0⟩, ⟨.write 4 [0] 0, 10, 0⟩, ⟨.write 5 [1] 3, 10, 0⟩],
      [List.range 7], 0⟩, ((Pool.scalars.intern [1]).2.intern [1, 9]).2, 0⟩
  let later : Builder := { after with pool := (after.pool.intern [4, 4]).2 }
  let inside : Builder := { later with graph := later.graph.addBlock, block := 1 }
  let last : Builder :=
    ⟨⟨after.graph.values ++ [⟨.constant (.int1 true), 1, 1⟩, ⟨.constant (.int1 false), 1, 1⟩,
      ⟨.null, 9, 1⟩, ⟨.write 9 [0] 8, 9, 1⟩, ⟨.null, 10, 1⟩, ⟨.write 11 [0] 7, 10, 1⟩,
      ⟨.write 12 [1] 10, 10, 1⟩], [List.range 7, List.range' 7 7], 0⟩, later.pool, 1⟩
  have makes : MakesConstants factory Constant.int1 := fun leaf start => ⟨start.1 + 1, rfl⟩
  have ok : embed factory host (0, Builder.empty) = .ok 6 (2, after) := by
    unfold factory host after
    cbv
  have failed : embed factory broken (2, after) = .error .nullInstance (4, after) := by
    unfold factory broken after
    cbv
  have tried : Reaches (fun _ _ => True) after after :=
    .conversion (.start after) (makes.acts broken (2, after)) (by rw [failed]; rfl)
  let pair : Operation ValueId := .recordType [4, 4]
  let position : Operation ValueId := .positionAt 1
  have typed : Reaches (fun _ _ => True) after later := tried.step pair trivial rfl
  have blocked := typed.step .newBlock trivial rfl
  have ran : Reaches (fun _ _ => True) after inside := blocked.step position trivial rfl
  have start : Reaches (fun _ _ => True) Builder.empty Builder.empty := .start Builder.empty
  have made : embed factory host (4, inside) = .ok 13 (6, last) := by
    unfold factory host inside last later after
    cbv
  obtain ⟨second, _, again, pool, -, same⟩ :=
    conversion_gives_same_value_again makes start ok ran 4
  rw [made] at again
  cases again
  exact ⟨after, later, last, ok, failed, rfl, made, pool, same⟩

end Host

end KernelIR
