import KernelIR.Proofs.Arena
import KernelIR.Proofs.Records
import KernelIR.Proofs.Rendering

/-!
Handles stay valid. A change adds to the end of a table and leaves what is there, and a conversion
that fails gives back the builder in which it began, also where it is only a part of what goes on.
Main statement: whatever calls do to a builder that began empty, and however they end, its values,
types and handles of structures are an initial part of what is there afterwards, and so is the list
of each of its blocks. So what a call has once handed out is there and means the same ever after.
-/

set_option autoImplicit false

namespace KernelIR

theorem lookup_of_grown {κ α : Type} [BEq κ] {before after : List (κ × α)}
    (grown : before <+: after) {key : κ} {entry : α} (found : before.lookup key = some entry) :
    after.lookup key = some entry := by
  obtain ⟨added, rfl⟩ := grown
  rw [List.lookup_append, found]
  rfl

namespace Builder

/-- Everything that a handle names is still there, and all of it comes first in its list. -/
structure Extends (before after : Builder) : Prop extends Grown before after where
  interned : before.pool.interned <+: after.pool.interned
  members : ∀ {block : BlockId} {ids : List ValueId}, before.graph.blocks[block]? = some ids →
    ∃ others, after.graph.blocks[block]? = some others ∧ ids <+: others
  params : before.graph.params ≤ after.graph.params

namespace Extends

theorem refl (builder : Builder) : Extends builder builder where
  toGrown := .refl builder
  interned := List.prefix_rfl
  members := fun found => ⟨_, found, List.prefix_rfl⟩
  params := Nat.le_refl _

theorem trans {first second third : Builder} (before : Extends first second)
    (after : Extends second third) : Extends first third where
  toGrown := before.toGrown.trans after.toGrown
  interned := before.interned.trans after.interned
  members := by
    intro block ids found
    obtain ⟨others, present, longer⟩ := before.members found
    obtain ⟨last, still, longest⟩ := after.members present
    exact ⟨last, still, longer.trans longest⟩
  params := Nat.le_trans before.params after.params

theorem appended (builder : Builder) (kind : ValueKind) (type : TypeId) :
    Extends builder (builder.appended kind type) where
  toGrown := .appended builder kind type
  interned := List.prefix_rfl
  members := by
    intro block ids found
    refine ⟨_, (Graph.append_blocks builder.graph kind type block builder.block).trans
      (congrArg _ found), ?_⟩
    split
    · exact List.prefix_append ids _
    · exact List.prefix_rfl
  params := Nat.le_refl _

end Extends

theorem extends_of_change {given : Builder → TypeId → Prop} {before after : Builder}
    (change : Change given before after) : Extends before after := by
  have grown := grown_of_change change
  cases change with
  | @intern fields known =>
      exact { Extends.refl before with
        toGrown := grown
        interned := (Pool.intern_grows before.pool fields).2 }
  | block =>
      exact { Extends.refl before with
        toGrown := grown
        members := fun found =>
          ⟨_, stored_of_grown (List.prefix_append _ _) found, List.prefix_rfl⟩ }
  | append placed allowed => exact .appended before _ _
  | parameter placed promised =>
      have added := Extends.appended before.counted (.parameter before.graph.params)
      exact { added _ with
        params := Nat.le_succ _ }
  | _ => exact { Extends.refl before with toGrown := grown }

theorem extends_kept (given : Builder → TypeId → Prop) :
    Kept given fun before after => before.Tidy → after.Tidy ∧ Extends before after where
  refl builder tidy := ⟨tidy, .refl builder⟩
  trans first second tidy := by
    obtain ⟨middle, before⟩ := first tidy
    obtain ⟨later, after⟩ := second middle
    exact ⟨later, before.trans after⟩
  change changed tidy := ⟨tidy.change changed, extends_of_change changed⟩
  undone ran tidy := by
    obtain ⟨later, between⟩ := ran tidy
    rw [tidy.undone later between.toGrown]
    exact ⟨tidy, .refl _⟩

end Builder

theorem Appendable.older {given : Builder → TypeId → Prop} {builder : Builder} {kind : ValueKind}
    {type : TypeId} (allowed : Appendable given builder kind type) :
    ∀ operand ∈ kind.operands, operand < builder.graph.size := by
  cases allowed with
  | write checked => exact Builder.older_of_writeType checked
  | read found => exact Graph.older_of_fieldType found
  | _ => exact List.forall_mem_nil _

theorem Appendable.typed {given : Builder → TypeId → Prop} {builder : Builder} {kind : ValueKind}
    {type : TypeId} (allowed : Appendable given builder kind type) :
    builder.graph.Typed builder.pool kind type := by
  cases allowed with
  | given promised => trivial
  | null known => trivial
  | constant value => rfl
  | @write object value path type checked =>
      obtain ⟨typed, field, part, some, reached⟩ :=
        (Builder.writeType_eq_ok_iff builder object path value type).mp checked
      exact ⟨typed, field, part, (Pool.resolve_eq_ok_iff _ type field path).mpr ⟨some, reached⟩⟩
  | @read object path type found =>
      obtain ⟨whole, typed, some, reached⟩ :=
        (Graph.fieldType_eq_ok_iff builder.graph builder.pool object path type).mp found
      exact ⟨whole, typed, (Pool.resolve_eq_ok_iff _ whole type path).mpr ⟨some, reached⟩⟩

def Version.value? : Version → Option ValueId
  | .stored value => some value
  | .within value _ => some value
  | .initial => none
  | .undecided => none

namespace Graph

variable {graph : Graph} {pool : Pool}

theorem Backward.append (backward : graph.Backward) {kind : ValueKind}
    (older : ∀ operand ∈ kind.operands, operand < graph.size) (type : TypeId) (block : BlockId) :
    (graph.append kind type block).Backward := by
  intro id made found operand used
  rcases (graph.kind?_append_iff kind made type block id).mp found with old | ⟨rfl, rfl⟩
  · exact backward id made old operand used
  · exact older operand used

theorem Coherent.append (coherent : graph.Coherent pool) {kind : ValueKind} {type : TypeId}
    (older : ∀ operand ∈ kind.operands, operand < graph.size)
    (typed : graph.Typed pool kind type) (block : BlockId) :
    (graph.append kind type block).Coherent pool where
  backward := coherent.backward.append older type block
  typed := by
    have grown : graph.values <+: (graph.append kind type block).values := List.prefix_append _ _
    intro id value stored
    rcases (stored_snoc_iff graph.values _ id value).mp stored with old | ⟨-, rfl⟩
    · exact (coherent.typed old).of_grown grown List.prefix_rfl
    · exact typed.of_grown grown List.prefix_rfl

theorem Coherent.of_values (coherent : graph.Coherent pool) {other : Graph} {laterPool : Pool}
    (values : other.values = graph.values) (types : pool.types <+: laterPool.types) :
    other.Coherent laterPool where
  backward := by
    intro id made found
    apply coherent.backward id made
    unfold kind? at found ⊢
    rw [← values, found]
  typed := by
    intro id value stored
    rw [values] at stored
    exact (coherent.typed stored).of_grown (values ▸ List.prefix_rfl) types

theorem LastWrite.older (backward : graph.Backward) {path : Path} {id : ValueId} {version : Version}
    (last : graph.LastWrite path id version) : ∀ value ∈ version.value?, value < id := by
  induction last with
  | equal write =>
      rintro value ⟨⟩
      exact backward _ _ write _ (List.mem_cons_of_mem _ List.mem_cons_self)
  | enclosing write more split =>
      rintro value ⟨⟩
      exact backward _ _ write _ (List.mem_cons_of_mem _ List.mem_cons_self)
  | elsewhere write apart before ih =>
      intro value named
      exact Nat.lt_trans (ih value named) (backward _ _ write _ List.mem_cons_self)
  | _ =>
      intro value named
      cases named

theorem Backward.located_inside (backward : graph.Backward) {fuel : Nat} {object value : ValueId}
    {path : Path} (located : graph.locateFrom pool fuel object path = .ok (.stored value)) :
    value < graph.size := by
  induction fuel generalizing object path with
  | zero => cases located
  | succ fuel ih =>
      unfold locateFrom at located
      obtain ⟨field, found, located⟩ := (bind_eq_ok_iff _ _ _).mp located
      obtain ⟨version, walked, located⟩ := (bind_eq_ok_iff _ _ _).mp located
      have inside := older_of_fieldType found object List.mem_cons_self
      obtain ⟨other, walkedTo, last⟩ := backward.lastWrite_found path (graph.size + 1) object inside
        (Nat.lt_succ_of_lt inside)
      rw [walkedTo, Failure.lift_eq_ok_iff] at walked
      cases walked
      cases version with
      | stored own =>
          cases located
          exact Nat.lt_trans (last.older backward value rfl) inside
      | within inner rest => exact ih located
      | initial => cases located
      | undecided => cases located

end Graph

namespace Builder

/-- No operation appends a value without having looked at its operands, so graphs stay coherent
whatever types are given. -/
theorem coherent_of_change {given : Builder → TypeId → Prop} {before after : Builder}
    (coherent : before.graph.Coherent before.pool) (change : Change given before after) :
    after.graph.Coherent after.pool := by
  have grown := grown_of_change change
  cases change with
  | append placed allowed => exact coherent.append allowed.older allowed.typed _
  | @parameter type placed promised =>
      have counted : before.counted.graph.Coherent before.pool :=
        coherent.of_values rfl List.prefix_rfl
      have typed : before.counted.graph.Typed before.pool (.parameter before.graph.params) type :=
        trivial
      exact counted.append (List.forall_mem_nil _) typed _
  | _ => exact coherent.of_values rfl grown.types

theorem coherent_kept (given : Builder → TypeId → Prop) :
    Kept given fun before after => before.graph.Coherent before.pool →
      after.graph.Coherent after.pool ∧ Grown before after := by
  apply (grown_kept given).invariant
  · intro before after coherent change
    exact coherent_of_change coherent change
  · intro before after coherent later grown
    exact coherent.of_values grown.values_undone grown.undone.types

theorem empty_coherent : empty.graph.Coherent empty.pool where
  backward := by
    intro id made found
    cases found
  typed := by
    intro id value stored
    cases stored

end Builder

theorem Reaches.coherent {given : Builder → TypeId → Prop} {builder : Builder}
    (reached : Reaches given Builder.empty builder) : builder.graph.Coherent builder.pool :=
  (reached.keeps (Builder.coherent_kept given) Builder.empty_coherent).1

theorem Reaches.trans {given : Builder → TypeId → Prop} {first second third : Builder}
    (before : Reaches given first second) (after : Reaches given second third) :
    Reaches given first third := by
  induction after with
  | start builder => exact before
  | operation reached promised ended ih => exact .operation (ih before) promised ended
  | conversion reached acts ended ih _ => exact .conversion (ih before) acts ended

namespace Host

variable {τ α : Type} {given : Builder → TypeId → Prop}

/-- Asks the second factory where the first one has failed, in the state that this has left. -/
def orElse (first second : Factory τ α) : Factory τ α := fun leaf start =>
  match first leaf start with
  | .ok value later => .ok value later
  | .error _ later => second leaf later
  | .fault cause => .fault cause

theorem orElse_acts {first second : Factory τ α} (host : Host α) (start : τ × Builder)
    (acts : ∀ leaf asked, ActsByRuns given first (.primitive leaf) asked)
    (others : ∀ leaf asked, ActsByRuns given second (.primitive leaf) asked) :
    ActsByRuns given (orElse first second) host start := by
  intro leaf asked answered _ ended
  unfold orElse at ended
  cases outcome : first leaf asked with
  | ok value later =>
      rw [outcome] at ended
      cases ended
      exact acts leaf asked leaf asked answered ⟨rfl, rfl⟩ (by rw [outcome]; rfl)
  | error cause later =>
      rw [outcome] at ended
      have failed := acts leaf asked leaf asked later ⟨rfl, rfl⟩ (by rw [outcome]; rfl)
      exact failed.trans (others leaf later leaf later answered ⟨rfl, rfl⟩ ended)
  | fault cause =>
      rw [outcome] at ended
      cases ended

end Host

namespace Builder

variable {builder later : Builder}

def GivesValue (step : Build Builder ValueId) (builder : Builder) : Prop :=
  ∀ value later, step builder = .ok value later → value < later.graph.size

namespace GivesValue

theorem bind {β : Type} {first : Build Builder β} {next : β → Build Builder ValueId}
    (rest : ∀ found later, first builder = .ok found later → GivesValue (next found) later) :
    GivesValue (first >>= next) builder := by
  intro value later ok
  obtain ⟨found, middle, begun, ended⟩ := Build.bind_eq_ok ok
  exact rest found middle begun value later ended

theorem append (kind : ValueKind) (type : TypeId) :
    GivesValue (Builder.append kind type) builder := by
  intro value later ok
  obtain ⟨-, rfl, rfl⟩ := append_eq_ok ok
  rw [appended_size]
  exact Nat.lt_succ_self _

theorem parameter (type : TypeId) : GivesValue (Builder.parameter type) builder := by
  intro value later ok
  unfold Builder.parameter at ok
  split at ok
  · exact append _ type value later ok
  · cases ok

theorem defaultRecord (type : TypeId) : GivesValue (Builder.defaultRecord type) builder :=
  bind fun _ _ _ => append .null type

theorem write (object : ValueId) (path : Path) (value : ValueId) :
    GivesValue (Builder.write object path value) builder :=
  bind fun type _ _ => append _ type

theorem writeFields {object : ValueId} (inside : object < builder.graph.size) (index : Nat)
    (values : List ValueId) : GivesValue (Builder.writeFields object index values) builder := by
  induction values generalizing builder object index with
  | nil =>
      rintro value later ⟨⟩
      exact inside
  | cons value values ih =>
      exact bind fun next middle written => ih (write _ _ _ next middle written) (index + 1)

theorem recordOf (operands : List ValueId) : GivesValue (Builder.recordOf operands) builder := by
  unfold Builder.recordOf
  split
  · rintro value later ⟨⟩
  · exact bind fun type _ _ => bind fun object middle made =>
      writeFields (append _ _ object middle made) 0 operands

theorem assemble (values : List ValueId) : GivesValue (Host.assemble values) builder :=
  bind fun type _ _ => bind fun object middle made =>
    writeFields (defaultRecord type object middle made) 0 values

theorem read (backward : builder.graph.Backward) (object : ValueId) (path : Path) :
    GivesValue (Builder.read object path) builder := by
  apply bind
  intro answer middle asked
  obtain ⟨located, rfl⟩ := Build.ask_eq_ok asked
  cases answer with
  | stored value =>
      rintro own later ⟨⟩
      exact backward.located_inside located
  | initial type => exact append .null type
  | load object path type => exact append _ type

end GivesValue

def Names (builder : Builder) : Result → Prop
  | .nothing => True
  | .type id => id < builder.pool.size
  | .block id => id < builder.graph.blocks.length
  | .value id => id < builder.graph.size

theorem Names.extended {result : Result} (named : builder.Names result)
    (extended : Extends builder later) : later.Names result := by
  cases result with
  | nothing => trivial
  | type id => exact Nat.lt_of_lt_of_le named extended.types.length_le
  | block id => exact Nat.lt_of_lt_of_le named extended.blocks
  | value id => exact Nat.lt_of_lt_of_le named extended.values.length_le

theorem GivesValue.names {step : Build Builder ValueId} (gives : GivesValue step builder)
    {result : Result}
    (ok : (step >>= fun id => pure (Result.value id)) builder = .ok result later) :
    later.Names result := by
  obtain ⟨id, middle, made, same⟩ := Build.bind_eq_ok ok
  cases same
  exact gives id later made

theorem operation_names (tidy : builder.Tidy) (backward : builder.graph.Backward)
    {operation : Operation ValueId} {result : Result}
    (ok : operation.run builder = .ok result later) : later.Names result := by
  cases operation with
  | recordType fields =>
      obtain ⟨id, middle, made, same⟩ := Build.bind_eq_ok ok
      cases same
      unfold recordType at made
      split at made
      · next known =>
          cases made
          have inside := (Pool.all_contained_iff builder.pool fields).mp known
          exact lt_of_stored (Pool.intern_stored _ fields (tidy.wellFormed.intern inside))
      · cases made
  | newBlock =>
      cases ok
      change _ < (builder.graph.blocks ++ [[]]).length
      rw [List.length_append]
      exact Nat.lt_succ_self _
  | positionAt block =>
      obtain ⟨-, middle, -, same⟩ := Build.bind_eq_ok ok
      cases same
      trivial
  | reopen =>
      cases ok
      trivial
  | null type => exact (GivesValue.append .null type).names ok
  | parameter type => exact (GivesValue.parameter type).names ok
  | constant value => exact (GivesValue.append (.constant value) _).names ok
  | defaultRecord type => exact (GivesValue.defaultRecord type).names ok
  | recordOf operands => exact (GivesValue.recordOf operands).names ok
  | read object path => exact (GivesValue.read backward object path).names ok
  | write object path value => exact (GivesValue.write object path value).names ok

theorem embed_gives {τ α : Type} {factory : Host.Factory τ α} {host : Host α}
    {start ended : τ × Builder}
    (answers : ∀ leaf asked answered own, Host.Asks factory leaf asked host start →
      factory leaf asked = .ok own answered → own < answered.2.graph.size) {value : ValueId}
    (ok : Host.embed factory host start = .ok value ended) : value < ended.2.graph.size := by
  have converted := Host.embed_eq_ok ok
  cases host with
  | primitive leaf => exact answers leaf start ended value ⟨rfl, rfl⟩ converted
  | enumeration leaf => exact answers leaf start ended value ⟨rfl, rfl⟩ converted
  | composite declared fields =>
      unfold Host.convert at converted
      split at converted
      · obtain ⟨values, middle, -, assembled⟩ := Build.bind_eq_ok converted
        exact GivesValue.assemble values value ended.2 (Build.onSecond_eq_ok assembled).1
      · cases converted
  | null => cases converted
  | reference typeName => cases converted
  | array typeName => cases converted

/-- A call has ended in the builder and has given the result: an operation that began where a run
from the empty builder had led, or a conversion whose factory answers with values of the graph. -/
inductive HandsOut (given : Builder → TypeId → Prop) : Builder → Result → Prop
  | operation {before after : Builder} {operation : Operation ValueId} {result : Result}
      (reached : Reaches given empty before) (ok : operation.run before = .ok result after) :
      HandsOut given after result
  | conversion {τ α : Type} {before after : Builder} {factory : Host.Factory τ α} {host : Host α}
      {tally later : τ} {value : ValueId}
      (answers : ∀ leaf asked answered own, Host.Asks factory leaf asked host (tally, before) →
        factory leaf asked = .ok own answered → own < answered.2.graph.size)
      (ok : Host.embed factory host (tally, before) = .ok value (later, after)) :
      HandsOut given after (.value value)

theorem HandsOut.names {given : Builder → TypeId → Prop} {result : Result}
    (handed : HandsOut given builder result) : builder.Names result := by
  cases handed with
  | operation reached ok => exact operation_names reached.tidy reached.coherent.backward ok
  | conversion answers ok => exact embed_gives answers ok

/-- Calls only add to a builder that began empty. What a handle names, a value, a type or the handle
of a structure, it still names after any further calls, and it is the same; types unfold as before.
And what calls hand out does name something. -/
theorem handles_stay_valid {given : Builder → TypeId → Prop} {before after : Builder}
    (reached : Reaches given empty before) (ran : Reaches given before after) :
    Extends before after ∧
      (∀ (id : ValueId) (value : Value), before.graph.values[id]? = some value →
        after.graph.values[id]? = some value) ∧
      (∀ (id : TypeId) (data : TypeData), before.pool.types[id]? = some data →
        after.pool.types[id]? = some data ∧ after.pool.tree? id = before.pool.tree? id) ∧
      (∀ (fields : List TypeId) (id : TypeId), before.pool.interned.lookup fields = some id →
        after.pool.interned.lookup fields = some id) ∧
      ∀ result : Result, HandsOut given before result →
        before.Names result ∧ after.Names result := by
  have tidy := reached.tidy
  have extended : Extends before after := (ran.keeps (extends_kept given) tidy).2
  refine ⟨extended, fun id value => stored_of_grown extended.values, ?_,
    fun fields id => lookup_of_grown extended.interned, ?_⟩
  · intro id data stored
    exact ⟨stored_of_grown extended.types stored,
      tidy.wellFormed.ordered.tree?_of_grown extended.types (lt_of_stored stored)⟩
  · intro result handed
    exact ⟨handed.names, handed.names.extended extended⟩

/-- The field of a record is first tried as a pair, which fails when a value has been added for the
first half, and is then made into a constant. -/
theorem parameter_stays_behind_failed_attempt :
    let before : Builder := ⟨⟨[⟨.parameter 0, 4, 0⟩], [[0]], 1⟩, Pool.scalars, 0⟩
    let halves : Bool → Host Bool := fun leaf => .composite 2 [.primitive leaf, .null]
    let factory : Host.Factory Unit Bool :=
      Host.orElse (Host.nested (Host.constants .int1) halves) (Host.constants .int1)
    let host : Host Bool := .composite 1 [.primitive true]
    ∃ after, Host.embed factory host ((), before) = .ok 3 ((), after) ∧
      HandsOut (fun _ _ => True) before (.value 0) ∧ Extends before after ∧
        after.Names (.value 0) := by
  intro before halves factory host
  let parameter : Operation ValueId := .parameter 4
  have made : parameter.run empty = .ok (.value 0) before := rfl
  have start : Reaches (fun _ _ => True) empty empty := .start empty
  have reached : Reaches (fun _ _ => True) empty before := start.step parameter trivial rfl
  have acts : Host.ActsByRuns (fun _ _ => True) factory host ((), before) :=
    Host.orElse_acts host _
      (fun leaf asked => Host.nested_acts _ asked fun _ inner => Host.constants_act _ _ inner)
      (fun leaf asked => Host.constants_act _ _ asked)
  let after : Builder :=
    ⟨⟨[⟨.parameter 0, 4, 0⟩, ⟨.constant (.int1 true), 1, 0⟩, ⟨.null, 9, 0⟩, ⟨.write 2 [0] 1, 9, 0⟩],
      [[0, 1, 2, 3]], 1⟩, (Pool.scalars.intern [1]).2, 0⟩
  have ended : Host.embed factory host ((), before) = .ok 3 ((), after) := rfl
  have ran : Reaches (fun _ _ => True) before after :=
    .conversion (.start before) acts (by rw [ended]; rfl)
  have handed : HandsOut (fun _ _ => True) before (.value 0) := .operation start made
  obtain ⟨extended, -, -, -, named⟩ := handles_stay_valid reached ran
  exact ⟨after, ended, handed, extended, (named _ handed).2⟩

end Builder

end KernelIR
