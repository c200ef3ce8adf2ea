import KernelIR.Host.Basic
import KernelIR.Proofs.Forwarding
import Mathlib.Logic.Relation

/-!
Runs of a builder: any sequence of operations and of conversions of host instances, each of which
may end with a value or with an error. The factory of a conversion takes part with runs of its own,
in which there may be further conversions. Whatever an operation does is made of a few kinds of
change, so a relation between builders that all changes keep, and that a rollback does not break, is
kept by every run.
-/

set_option autoImplicit false

namespace KernelIR

def Outcome.state? {σ α : Type} : Outcome σ α → Option σ
  | .ok _ later => some later
  | .error _ later => some later
  | .fault _ => none

namespace Build

variable {σ τ α β : Type}

theorem state_of_bind {first : Build σ α} {next : α → Build σ β} {state later : σ}
    (ended : ((first >>= next) state).state? = some later) :
    (∃ cause, first state = .error cause later) ∨
      ∃ value middle, first state = .ok value middle ∧ (next value middle).state? = some later := by
  rw [bind_apply] at ended
  cases outcome : first state with
  | ok value middle =>
      rw [outcome] at ended
      exact .inr ⟨value, middle, rfl, ended⟩
  | error cause middle =>
      rw [outcome] at ended
      cases ended
      exact .inl ⟨cause, rfl⟩
  | fault cause =>
      rw [outcome] at ended
      cases ended

theorem bind_eq_ok {first : Build σ α} {next : α → Build σ β} {state later : σ} {result : β}
    (ok : (first >>= next) state = .ok result later) :
    ∃ value middle, first state = .ok value middle ∧ next value middle = .ok result later := by
  rw [bind_apply] at ok
  cases outcome : first state with
  | ok value middle =>
      rw [outcome] at ok
      exact ⟨value, middle, rfl, ok⟩
  | error cause middle =>
      rw [outcome] at ok
      cases ok
  | fault cause =>
      rw [outcome] at ok
      cases ok

theorem ask_eq_ok {question : σ → Except Failure α} {state later : σ} {value : α}
    (ok : ask question state = .ok value later) : question state = .ok value ∧ later = state := by
  unfold ask at ok
  cases answer : question state with
  | ok found =>
      simp only [answer] at ok
      cases ok
      exact ⟨rfl, rfl⟩
  | error failure =>
      simp only [answer] at ok
      cases failure <;> cases ok

theorem state_of_wrapped (step : Build σ α) (wrap : α → β) (state : σ) :
    ((step >>= fun value => pure (wrap value)) state).state? = (step state).state? := by
  rw [bind_apply]
  cases step state <;> rfl

theorem state_of_wrapped_ok {step : Build σ α} {state later : σ} {value : α}
    (ok : step state = .ok value later) (wrap : α → β) :
    ((step >>= fun value => pure (wrap value)) state).state? = some later := by
  rw [state_of_wrapped, ok]
  rfl

theorem onSecond_apply (step : Build σ α) (left : τ) (state : σ) :
    onSecond step (left, state) =
      match step state with
      | .ok value later => .ok value (left, later)
      | .error cause later => .error cause (left, later)
      | .fault cause => .fault cause := rfl

theorem onSecond_eq_ok {step : Build σ α} {start later : τ × σ} {value : α}
    (ok : onSecond step start = .ok value later) :
    step start.2 = .ok value later.2 ∧ later.1 = start.1 := by
  obtain ⟨left, state⟩ := start
  rw [onSecond_apply] at ok
  cases outcome : step state with
  | ok found middle =>
      rw [outcome] at ok
      cases ok
      exact ⟨rfl, rfl⟩
  | error cause middle =>
      rw [outcome] at ok
      cases ok
  | fault cause =>
      rw [outcome] at ok
      cases ok

theorem state_of_onSecond {step : Build σ α} {start later : τ × σ}
    (ended : (onSecond step start).state? = some later) : (step start.2).state? = some later.2 := by
  obtain ⟨left, state⟩ := start
  rw [onSecond_apply] at ended
  cases outcome : step state with
  | ok value middle =>
      rw [outcome] at ended
      cases ended
      rfl
  | error cause middle =>
      rw [outcome] at ended
      cases ended
      rfl
  | fault cause =>
      rw [outcome] at ended
      cases ended

end Build

inductive Result where
  | nothing
  | type (id : TypeId)
  | block (id : BlockId)
  | value (id : ValueId)
deriving DecidableEq

/-- The operations of a builder besides conversions. Their values are named by `ν`. -/
inductive Operation (ν : Type) where
  | recordType (fields : List TypeId)
  | newBlock
  | positionAt (block : BlockId)
  /-- A new builder on the same graph and pool. -/
  | reopen
  | null (type : TypeId)
  | parameter (type : TypeId)
  | constant (value : Constant)
  | defaultRecord (type : TypeId)
  | recordOf (operands : List ν)
  | read (object : ν) (path : Path)
  | write (object : ν) (path : Path) (value : ν)

namespace Operation

def runWith (reader : ValueId → Path → Build Builder ValueId) :
    Operation ValueId → Build Builder Result
  | .recordType fields => do
      let id ← Builder.recordType fields
      return .type id
  | .newBlock => do
      let id ← Builder.newBlock
      return .block id
  | .positionAt block => do
      Builder.positionAt block
      return .nothing
  | .reopen => fun builder => .ok .nothing (Builder.on builder.graph builder.pool)
  | .null type => do
      let id ← Builder.null type
      return .value id
  | .parameter type => do
      let id ← Builder.parameter type
      return .value id
  | .constant value => do
      let id ← Builder.constant value
      return .value id
  | .defaultRecord type => do
      let id ← Builder.defaultRecord type
      return .value id
  | .recordOf operands => do
      let id ← Builder.recordOf operands
      return .value id
  | .read object path => do
      let id ← reader object path
      return .value id
  | .write object path value => do
      let id ← Builder.write object path value
      return .value id

def run : Operation ValueId → Build Builder Result := runWith Builder.read

/-- The types of defaults and parameters are not checked, so what is known of them is a promise. -/
def Promised {ν : Type} (given : Builder → TypeId → Prop) (builder : Builder) : Operation ν → Prop
  | .null type => given builder type
  | .parameter type => given builder type
  | _ => True

end Operation

namespace Host

variable {τ α : Type}

mutual

/-- A conversion from the state `start` asks the factory for `leaf` in the state `asked`. -/
def Asks (factory : Factory τ α) (leaf : α) (asked : τ × Builder) : Host α → τ × Builder → Prop
  | .primitive own, start => own = leaf ∧ start = asked
  | .enumeration own, start => own = leaf ∧ start = asked
  | .composite declared fields, start =>
      declared ≤ fieldLimit ∧ AsksFields factory leaf asked declared fields start
  | _, _ => False

def AsksFields (factory : Factory τ α) (leaf : α) (asked : τ × Builder) :
    Nat → List (Host α) → τ × Builder → Prop
  | 0, _, _ => False
  | _ + 1, [], _ => False
  | declared + 1, field :: fields, start =>
      Asks factory leaf asked field start ∨
        ∃ value later, convert factory field start = .ok value later ∧
          AsksFields factory leaf asked declared fields later

end

theorem embed_apply (factory : Factory τ α) (host : Host α) (tally : τ) (builder : Builder) :
    embed factory host (tally, builder) =
      match convert factory host (tally, builder) with
      | .ok value later => .ok value later
      | .error cause (tally, later) => .error cause (tally, later.rollback builder.mark)
      | .fault cause => .fault cause := rfl

theorem embed_eq_error {factory : Factory τ α} {host : Host α} {start later : τ × Builder}
    {cause : BuildError} (failed : embed factory host start = .error cause later) :
    ∃ reached, convert factory host start = .error cause reached ∧
      later = (reached.1, reached.2.rollback start.2.mark) := by
  obtain ⟨tally, builder⟩ := start
  rw [embed_apply] at failed
  cases outcome : convert factory host (tally, builder) with
  | ok value middle =>
      rw [outcome] at failed
      cases failed
  | error other middle =>
      rw [outcome] at failed
      cases failed
      exact ⟨middle, rfl, rfl⟩
  | fault other =>
      rw [outcome] at failed
      cases failed

theorem embed_eq_ok {factory : Factory τ α} {host : Host α} {start later : τ × Builder}
    {value : ValueId} (ok : embed factory host start = .ok value later) :
    convert factory host start = .ok value later := by
  obtain ⟨tally, builder⟩ := start
  rw [embed_apply] at ok
  cases outcome : convert factory host (tally, builder) with
  | ok value middle =>
      rw [outcome] at ok
      exact ok
  | error other middle =>
      rw [outcome] at ok
      cases ok
  | fault other =>
      rw [outcome] at ok
      cases ok

end Host

/-- A run leads from one builder to the other. The types of defaults and parameters are `given`. -/
inductive Reaches (given : Builder → TypeId → Prop) : Builder → Builder → Prop
  | start (builder : Builder) : Reaches given builder builder
  | operation {start before after : Builder} {operation : Operation ValueId}
      (reached : Reaches given start before) (promised : operation.Promised given before)
      (ended : (operation.run before).state? = some after) : Reaches given start after
  /-- Each time the factory is asked, it answers by a run. -/
  | conversion {τ α : Type} {start before after : Builder} {factory : Host.Factory τ α}
      {host : Host α} {tally later : τ} (reached : Reaches given start before)
      (acts : ∀ leaf asked answered, Host.Asks factory leaf asked host (tally, before) →
        (factory leaf asked).state? = some answered → Reaches given asked.2 answered.2)
      (ended : (Host.embed factory host (tally, before)).state? = some (later, after)) :
      Reaches given start after

theorem Reaches.step {given : Builder → TypeId → Prop} {start before after : Builder}
    (reached : Reaches given start before) (operation : Operation ValueId)
    (promised : operation.Promised given before)
    (ended : (operation.run before).state? = some after) : Reaches given start after :=
  .operation reached promised ended

def Host.ActsByRuns {τ α : Type} (given : Builder → TypeId → Prop) (factory : Host.Factory τ α)
    (host : Host α) (start : τ × Builder) : Prop :=
  ∀ leaf asked answered, Host.Asks factory leaf asked host start →
    (factory leaf asked).state? = some answered → Reaches given asked.2 answered.2

namespace Host

variable {τ α : Type} {given : Builder → TypeId → Prop}

def constants (value : α → Constant) : Factory τ α := fun leaf =>
  Build.onSecond (Builder.constant (value leaf))

theorem constants_act (value : α → Constant) (host : Host α) (start : τ × Builder) :
    ActsByRuns given (constants value) host start := by
  intro leaf asked answered _ ended
  let operation : Operation ValueId := .constant (value leaf)
  have promised : operation.Promised given asked.2 := trivial
  have made : (operation.run asked.2).state? = some answered.2 :=
    (Build.state_of_wrapped _ _ asked.2).trans (Build.state_of_onSecond ended)
  exact .operation (.start asked.2) promised made

def nested (inner : Factory τ α) (expand : α → Host α) : Factory τ α := fun leaf =>
  embed inner (expand leaf)

theorem nested_acts {inner : Factory τ α} {expand : α → Host α} (host : Host α)
    (start : τ × Builder) (acts : ∀ leaf asked, ActsByRuns given inner (expand leaf) asked) :
    ActsByRuns given (nested inner expand) host start := by
  intro leaf asked answered _ ended
  exact .conversion (.start asked.2) (acts leaf asked) ended

end Host

/-- The values that a builder appends besides parameters, with what it has found out before. -/
inductive Appendable (given : Builder → TypeId → Prop) (builder : Builder) :
    ValueKind → TypeId → Prop
  | given {type : TypeId} (promised : given builder type) : Appendable given builder .null type
  | null {type : TypeId} (known : builder.pool.WellFormed → type < builder.pool.size) :
      Appendable given builder .null type
  | constant (value : Constant) : Appendable given builder (.constant value) value.type.id
  | write {object value : ValueId} {path : Path} {type : TypeId}
      (checked : builder.writeType object path value = .ok type) :
      Appendable given builder (.write object path value) type
  | read {object : ValueId} {path : Path} {type : TypeId}
      (found : builder.graph.fieldType builder.pool object path = .ok type) :
      Appendable given builder (.read object path) type

theorem Appendable.plain {given : Builder → TypeId → Prop} {builder : Builder} {kind : ValueKind}
    {type : TypeId} (allowed : Appendable given builder kind type) (index : Nat) :
    kind ≠ .parameter index := by
  intro made
  cases made
  cases allowed

def Builder.counted (builder : Builder) : Builder :=
  { builder with graph := { builder.graph with params := builder.graph.params + 1 } }

/-- The kinds of change that operations are made of. -/
inductive Change (given : Builder → TypeId → Prop) (builder : Builder) : Builder → Prop
  | intern {fields : List TypeId} (known : ∀ field ∈ fields, field < builder.pool.size) :
      Change given builder { builder with pool := (builder.pool.intern fields).2 }
  | block : Change given builder { builder with graph := builder.graph.addBlock }
  | position {block : BlockId} (inside : block < builder.graph.blocks.length) :
      Change given builder { builder with block := block }
  | reopen : Change given builder (Builder.on builder.graph builder.pool)
  | append {kind : ValueKind} {type : TypeId}
      (placed : builder.block < builder.graph.blocks.length)
      (allowed : Appendable given builder kind type) :
      Change given builder (builder.appended kind type)
  | parameter {type : TypeId} (placed : builder.block < builder.graph.blocks.length)
      (promised : given builder type) :
      Change given builder (builder.counted.appended (.parameter builder.graph.params) type)

abbrev Changes (given : Builder → TypeId → Prop) : Builder → Builder → Prop :=
  Relation.ReflTransGen (Change given)

section Operations

variable {α β : Type} {given : Builder → TypeId → Prop} {builder : Builder}

/-- A step that began at `builder` ends after changes and, if it ends well, as claimed. -/
def Leads (given : Builder → TypeId → Prop) (builder : Builder) (claim : α → Builder → Prop) :
    Outcome Builder α → Prop
  | .ok value later => Changes given builder later ∧ claim value later
  | .error _ later => Changes given builder later
  | .fault _ => True

namespace Leads

theorem changes {claim : α → Builder → Prop} {outcome : Outcome Builder α} {later : Builder}
    (leads : Leads given builder claim outcome) (ended : outcome.state? = some later) :
    Changes given builder later := by
  cases outcome with
  | ok value state =>
      cases ended
      exact leads.1
  | error cause state =>
      cases ended
      exact leads
  | fault cause => cases ended

theorem bind {claim : α → Builder → Prop} {next : β → Builder → Prop} {first : Build Builder α}
    {second : α → Build Builder β} (leads : Leads given builder claim (first builder))
    (rest : ∀ value later, claim value later → Leads given later next (second value later)) :
    Leads given builder next ((first >>= second) builder) := by
  rw [Build.bind_apply]
  cases outcome : first builder with
  | ok value later =>
      rw [outcome] at leads
      obtain ⟨before, claimed⟩ := leads
      have after := rest value later claimed
      simp only
      cases result : second value later with
      | ok value last =>
          rw [result] at after
          exact ⟨before.trans after.1, after.2⟩
      | error cause last =>
          rw [result] at after
          exact before.trans after
      | fault cause => trivial
  | error cause later =>
      rw [outcome] at leads
      exact leads
  | fault cause => trivial

theorem pure {claim : α → Builder → Prop} {value : α} (claimed : claim value builder) :
    Leads given builder claim ((Pure.pure value : Build Builder α) builder) :=
  ⟨.refl, claimed⟩

theorem wrap {claim : α → Builder → Prop} {step : Build Builder α} (result : α → β)
    (leads : Leads given builder claim (step builder)) :
    Leads given builder (fun _ _ => True)
      ((step >>= fun value => Pure.pure (result value)) builder) :=
  leads.bind fun _ _ _ => pure trivial

theorem ask {question : Builder → Except Failure α} :
    Leads given builder (fun value later => later = builder ∧ question builder = .ok value)
      (Build.ask question builder) := by
  unfold Build.ask
  cases answer : question builder with
  | ok value => exact ⟨.refl, rfl, rfl⟩
  | error failure =>
      cases failure with
      | error cause => exact .refl
      | fault cause => trivial

theorem append {kind : ValueKind} {type : TypeId} (allowed : Appendable given builder kind type) :
    Leads given builder (fun _ _ => True) (Builder.append kind type builder) := by
  unfold Builder.append
  split
  · next placed => exact ⟨.single (.append placed allowed), trivial⟩
  · trivial

theorem parameter {type : TypeId} (promised : given builder type) :
    Leads given builder (fun _ _ => True) (Builder.parameter type builder) := by
  unfold Builder.parameter
  split
  · unfold Builder.append
    split
    · next placed => exact ⟨.single (.parameter placed promised), trivial⟩
    · trivial
  · trivial

theorem recordType (fields : List TypeId) :
    Leads given builder (fun type later => later.pool.WellFormed → type < later.pool.size)
      (Builder.recordType fields builder) := by
  unfold Builder.recordType
  split
  · next known =>
      refine ⟨.single (.intern ((Pool.all_contained_iff builder.pool fields).mp known)), ?_⟩
      intro wellFormed
      exact lt_of_stored (Pool.intern_stored builder.pool fields wellFormed)
  · trivial

theorem null {type : TypeId} (known : builder.pool.WellFormed → type < builder.pool.size) :
    Leads given builder (fun _ _ => True) (Builder.null type builder) :=
  append (.null known)

theorem defaultRecord (type : TypeId) :
    Leads given builder (fun _ _ => True) (Builder.defaultRecord type builder) := by
  apply bind ask
  rintro found later ⟨rfl, checked⟩
  apply null
  rintro -
  cases fields : later.pool.fieldsOf type with
  | ok fields => exact lt_of_stored ((Pool.fieldsOf_eq_ok_iff later.pool type _).mp fields)
  | error found =>
      rw [fields] at checked
      cases checked

theorem write (object : ValueId) (path : Path) (value : ValueId) :
    Leads given builder (fun _ _ => True) (Builder.write object path value builder) := by
  apply bind ask
  rintro type later ⟨rfl, checked⟩
  exact append (.write checked)

theorem writeFields (object : ValueId) (index : Nat) (values : List ValueId) :
    Leads given builder (fun _ _ => True) (Builder.writeFields object index values builder) := by
  induction values generalizing builder object index with
  | nil => exact pure trivial
  | cons value values ih =>
      exact bind (write object [index] value) fun later _ _ => ih later (index + 1)

theorem typeOfFields (values : List ValueId) :
    Leads given builder (fun type later => later.pool.WellFormed → type < later.pool.size)
      (Builder.typeOfFields values builder) := by
  apply bind ask
  rintro fields later ⟨rfl, -⟩
  exact recordType fields

theorem recordOf (operands : List ValueId) :
    Leads given builder (fun _ _ => True) (Builder.recordOf operands builder) := by
  unfold Builder.recordOf
  split
  · exact .refl
  · refine bind (typeOfFields operands) fun type middle known => ?_
    exact bind (null known) fun object later _ => writeFields object 0 operands

theorem assemble (values : List ValueId) :
    Leads given builder (fun _ _ => True) (Host.assemble values builder) := by
  refine bind (typeOfFields values) fun type middle _ => ?_
  exact bind (defaultRecord type) fun object later _ => writeFields object 0 values

theorem read (object : ValueId) (path : Path) :
    Leads given builder (fun _ _ => True) (Builder.read object path builder) := by
  apply bind ask
  rintro answer later ⟨rfl, located⟩
  have checked : later.graph.AnswerChecked later.pool answer := Graph.locateFrom_checked located
  cases answer with
  | stored value => exact pure trivial
  | initial type =>
      obtain ⟨object, path, found⟩ := checked
      exact null fun wellFormed => Graph.fieldType_lt wellFormed.ordered found
  | load object path type => exact append (.read checked)

theorem run {operation : Operation ValueId} (promised : operation.Promised given builder) :
    Leads given builder (fun _ _ => True) (operation.run builder) := by
  cases operation with
  | recordType fields => exact wrap Result.type (recordType fields)
  | newBlock =>
      have leads : Leads given builder (fun _ _ => True) (Builder.newBlock builder) :=
        ⟨.single .block, trivial⟩
      exact wrap Result.block leads
  | positionAt block =>
      have leads : Leads given builder (fun _ _ => True) (Builder.positionAt block builder) := by
        unfold Builder.positionAt
        split
        · next inside => exact ⟨.single (.position inside), trivial⟩
        · trivial
      exact wrap (fun _ => Result.nothing) leads
  | reopen => exact ⟨.single .reopen, trivial⟩
  | null type => exact wrap Result.value (append (.given promised))
  | parameter type => exact wrap Result.value (parameter promised)
  | constant value => exact wrap Result.value (append (.constant value))
  | defaultRecord type => exact wrap Result.value (defaultRecord type)
  | recordOf operands => exact wrap Result.value (recordOf operands)
  | read object path => exact wrap Result.value (read object path)
  | write object path value => exact wrap Result.value (write object path value)

end Leads

end Operations

/-- Relations that every change keeps, and that hold again after a return to where they began. -/
structure Kept (given : Builder → TypeId → Prop) (keeps : Builder → Builder → Prop) : Prop where
  refl : ∀ builder, keeps builder builder
  trans : ∀ {first second third}, keeps first second → keeps second third → keeps first third
  change : ∀ {before after}, Change given before after → keeps before after
  undone : ∀ {before after}, keeps before after → keeps before (after.rollback before.mark)

namespace Kept

variable {τ α : Type} {given : Builder → TypeId → Prop} {keeps : Builder → Builder → Prop}
  {factory : Host.Factory τ α}

theorem changes (kept : Kept given keeps) {before after : Builder}
    (changed : Changes given before after) : keeps before after := by
  induction changed with
  | refl => exact kept.refl before
  | tail _ last ih => exact kept.trans ih (kept.change last)

theorem invariant {holds : Builder → Prop} (kept : Kept given keeps)
    (change : ∀ {before after}, holds before → Change given before after → holds after)
    (undone : ∀ {before after}, holds before → holds after → keeps before after →
      holds (after.rollback before.mark)) :
    Kept given fun before after => holds before → holds after ∧ keeps before after where
  refl builder held := ⟨held, kept.refl builder⟩
  trans first second held := by
    obtain ⟨middle, before⟩ := first held
    obtain ⟨later, after⟩ := second middle
    exact ⟨later, kept.trans before after⟩
  change changed held := ⟨change held changed, kept.change changed⟩
  undone ran held := by
    obtain ⟨later, between⟩ := ran held
    exact ⟨undone held later between, kept.undone between⟩

mutual

theorem convert (kept : Kept given keeps) (host : Host α) {start later : τ × Builder}
    (acts : ∀ leaf asked answered, Host.Asks factory leaf asked host start →
      (factory leaf asked).state? = some answered → keeps asked.2 answered.2)
    (ended : (Host.convert factory host start).state? = some later) : keeps start.2 later.2 := by
  cases host with
  | null =>
      cases ended
      exact kept.refl _
  | primitive leaf => exact acts leaf start later ⟨rfl, rfl⟩ ended
  | enumeration leaf => exact acts leaf start later ⟨rfl, rfl⟩ ended
  | reference typeName =>
      cases ended
      exact kept.refl _
  | array typeName =>
      cases ended
      exact kept.refl _
  | composite declared fields =>
      unfold Host.convert at ended
      split at ended
      · next small =>
          have acted : ∀ leaf asked answered,
              Host.AsksFields factory leaf asked declared fields start →
              (factory leaf asked).state? = some answered → keeps asked.2 answered.2 :=
            fun leaf asked answered asks => acts leaf asked answered ⟨small, asks⟩
          rcases Build.state_of_bind ended with ⟨cause, failed⟩ | ⟨values, middle, converted, rest⟩
          · exact convertFields kept declared fields acted (by rw [failed]; rfl)
          · have before := convertFields kept declared fields acted (by rw [converted]; rfl)
            have assembled := Build.state_of_onSecond rest
            exact kept.trans before (kept.changes ((Leads.assemble values).changes assembled))
      · cases ended

theorem convertFields (kept : Kept given keeps) (declared : Nat) (fields : List (Host α))
    {start later : τ × Builder}
    (acts : ∀ leaf asked answered, Host.AsksFields factory leaf asked declared fields start →
      (factory leaf asked).state? = some answered → keeps asked.2 answered.2)
    (ended : (Host.convertFields factory declared fields start).state? = some later) :
    keeps start.2 later.2 := by
  cases declared with
  | zero =>
      unfold Host.convertFields at ended
      cases ended
      exact kept.refl _
  | succ declared =>
      cases fields with
      | nil =>
          unfold Host.convertFields at ended
          cases ended
          exact kept.refl _
      | cons field fields =>
          unfold Host.convertFields at ended
          have actedFirst := fun leaf asked answered asks => acts leaf asked answered (.inl asks)
          rcases Build.state_of_bind ended with ⟨cause, failed⟩ | ⟨value, middle, converted, rest⟩
          · exact convert kept field actedFirst (by rw [failed]; rfl)
          · have first := convert kept field actedFirst (by rw [converted]; rfl)
            -- The rest of the fields is asked for only in the state after this one.
            have actedRest := fun leaf asked answered asks =>
              acts leaf asked answered (.inr ⟨value, middle, converted, asks⟩)
            apply kept.trans first
            rcases Build.state_of_bind rest with ⟨cause, failed⟩ | ⟨values, last, finished, same⟩
            · exact convertFields kept declared fields actedRest (by rw [failed]; rfl)
            · cases same
              exact convertFields kept declared fields actedRest (by rw [finished]; rfl)

end

theorem embed (kept : Kept given keeps) (host : Host α) {start later : τ × Builder}
    (acts : ∀ leaf asked answered, Host.Asks factory leaf asked host start →
      (factory leaf asked).state? = some answered → keeps asked.2 answered.2)
    (ended : (Host.embed factory host start).state? = some later) : keeps start.2 later.2 := by
  cases outcome : Host.embed factory host start with
  | ok value middle =>
      rw [outcome] at ended
      cases ended
      have converted := Host.embed_eq_ok outcome
      exact kept.convert host acts (by rw [converted]; rfl)
  | error cause middle =>
      rw [outcome] at ended
      cases ended
      obtain ⟨reached, converted, rfl⟩ := Host.embed_eq_error outcome
      exact kept.undone (kept.convert host acts (by rw [converted]; rfl))
  | fault cause =>
      rw [outcome] at ended
      cases ended

end Kept

theorem Reaches.keeps {given : Builder → TypeId → Prop} {keeps : Builder → Builder → Prop}
    (kept : Kept given keeps) {start later : Builder} (reached : Reaches given start later) :
    keeps start later := by
  induction reached with
  | start builder => exact kept.refl builder
  | operation reached promised ended ih =>
      exact kept.trans ih (kept.changes ((Leads.run promised).changes ended))
  | conversion reached acts ended before acted =>
      exact kept.trans before (kept.embed _ acted ended)

/-- What a failing conversion forgets is what the run of its factory and of itself has added. -/
theorem Kept.failed {τ α : Type} {given : Builder → TypeId → Prop}
    {keeps : Builder → Builder → Prop} (kept : Kept given keeps) {factory : Host.Factory τ α}
    {host : Host α} {start : τ × Builder} (acts : Host.ActsByRuns given factory host start)
    {cause : BuildError} {later : τ × Builder}
    (failed : Host.embed factory host start = .error cause later) :
    ∃ reached, keeps start.2 reached ∧ later.2 = reached.rollback start.2.mark := by
  obtain ⟨reached, converted, rfl⟩ := Host.embed_eq_error failed
  refine ⟨reached.2, ?_, rfl⟩
  apply kept.convert host _ (by rw [converted]; rfl)
  intro leaf asked answered asks ended
  exact (acts leaf asked answered asks ended).keeps kept

end KernelIR
