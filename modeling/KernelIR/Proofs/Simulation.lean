import KernelIR.Proofs.Preservation
import KernelIR.Proofs.Programs
import KernelIR.Proofs.Rendering
import Mathlib.Data.List.Forall2

/-!
Forwarding reads against plain reads. A builder that answers reads from earlier writes and one that
appends every read play the same program. Their graphs and their numbers of values differ, but the
values that the same step gives have the same type and stand for the same datum. What a step may
end with depends on the pool and on the types of its operands only, so the builders stay in step,
up to a parameter for which neither of them has an index left.
-/

set_option autoImplicit false

namespace KernelIR

structure Inputs (left right : Builder) (own other : Assignment) : Prop where
  ownTyped : left.graph.Assigns left.pool own
  otherTyped : right.graph.Assigns right.pool other
  same : left.graph.SameInputs right.graph own other

/-- Whatever the parameters of one builder are given, those of the other can be given too. -/
structure Matched (left right : Builder) : Prop where
  forward : ∀ own, left.graph.Assigns left.pool own → ∃ other, Inputs left right own other
  backward : ∀ other, right.graph.Assigns right.pool other → ∃ own, Inputs left right own other

/-- A value of one builder and a value of the other mean the same, and a plain parameter is a
parameter of the same index. -/
structure Twin (left right : Builder) (id twin : ValueId) : Prop where
  typed : ∃ type, left.graph.type? id = some type ∧ right.graph.type? twin = some type
  parameter : ∀ index, right.graph.kind? twin = some (.parameter index) →
    left.graph.kind? id = some (.parameter index)
  denotes : ∀ own other, Inputs left right own other →
    left.graph.denote left.pool own id = right.graph.denote right.pool other twin

def SameResult (left right : Builder) : Result → Result → Prop
  | .value id, .value twin => Twin left right id twin
  | result, other => result = other

theorem SameResult.value? {left right : Builder} {result other : Result}
    (same : SameResult left right result other) :
    Option.Rel (Twin left right) result.value? other.value? := by
  cases result with
  | value id =>
      cases other with
      | value twin => exact .some same
      | _ => cases same
  | _ =>
      cases other with
      | value twin => cases same
      | _ => exact .none

/-- Each index that a parameter may have is that of a value already. -/
structure Builder.Exhausted (builder : Builder) : Prop where
  used : ¬ builder.graph.params + 1 < paramLimit
  counted : builder.graph.signature.length = builder.graph.params

/-- The step ends well in both builders, with the same pool and results that mean the same, or it
ends with the same error and the same pool; only a step for a parameter may find both exhausted. -/
inductive Agree (left right : Builder) :
    Operation Nat → Outcome Builder Result → Outcome Builder Result → Prop
  | ok {step : Operation Nat} {leftLater rightLater : Builder} {result other : Result}
      (pool : leftLater.pool = rightLater.pool) (matched : Matched leftLater rightLater)
      (same : SameResult leftLater rightLater result other) :
      Agree left right step (.ok result leftLater) (.ok other rightLater)
  | error {step : Operation Nat} {leftLater rightLater : Builder} (cause : BuildError)
      (pool : leftLater.pool = rightLater.pool) :
      Agree left right step (.error cause leftLater) (.error cause rightLater)
  | exhausted (type : TypeId) (own : left.Exhausted) (other : right.Exhausted) :
      Agree left right (.parameter type) (.fault (.overflow .add)) (.fault (.overflow .add))

/-- A forwarding session and a plain one play the program, and all their steps agree. -/
def InStep : List (Operation Nat) → Session → Session → Prop
  | [], _, _ => True
  | step :: program, left, right =>
      ∃ own other, step.named? left.value? = some own ∧ step.named? right.value? = some other ∧
        Agree left.builder right.builder step (own.runWith Builder.read left.builder)
          (other.runWith Builder.load right.builder) ∧
        ∀ leftLater rightLater,
          left.after? (own.runWith Builder.read left.builder) = some leftLater →
          right.after? (other.runWith Builder.load right.builder) = some rightLater →
            InStep program leftLater rightLater

namespace Builder

/-- The same apart from the values. -/
structure Alike (left right : Builder) : Prop where
  pool : left.pool = right.pool
  block : left.block = right.block
  blocks : left.graph.blocks.length = right.graph.blocks.length
  params : left.graph.params = right.graph.params
  signature : left.graph.signature = right.graph.signature
  numbered : left.graph.Numbered
  placed : left.block < left.graph.blocks.length
  leftSound : left.Sound
  rightSound : right.Sound

variable {left right leftLater rightLater : Builder}

theorem inputs_of_later (alike : Alike left right) (grownLeft : Grown left leftLater)
    (grownRight : Grown right rightLater) {own other : Assignment}
    (inputs : Inputs leftLater rightLater own other) : Inputs left right own other where
  ownTyped := inputs.ownTyped.of_later alike.leftSound.valid alike.leftSound.wellFormed.ordered
    grownLeft.values grownLeft.types
  otherTyped := inputs.otherTyped.of_later alike.rightSound.valid
    alike.rightSound.wellFormed.ordered grownRight.values grownRight.types
  same := fun index id twin madeLeft madeRight => inputs.same index id twin
    (Graph.kind?_of_grown grownLeft.values madeLeft)
    (Graph.kind?_of_grown grownRight.values madeRight)

theorem twin_of_grown (alike : Alike left right) (grownLeft : Grown left leftLater)
    (grownRight : Grown right rightLater) {id twin : ValueId} (twins : Twin left right id twin) :
    Twin leftLater rightLater id twin := by
  obtain ⟨type, typed, twinTyped⟩ := twins.typed
  refine ⟨⟨type, Graph.type?_of_grown grownLeft.values typed,
    Graph.type?_of_grown grownRight.values twinTyped⟩, ?_, ?_⟩
  · intro index made
    have before := Graph.kind?_before_grown grownRight.values made (Graph.lt_of_type? twinTyped)
    exact Graph.kind?_of_grown grownLeft.values (twins.parameter index before)
  · intro own other inputs
    rw [alike.leftSound.valid.denote_of_grown grownLeft.values grownLeft.types
        (Graph.lt_of_type? typed),
      alike.rightSound.valid.denote_of_grown grownRight.values grownRight.types
        (Graph.lt_of_type? twinTyped)]
    exact twins.denotes own other (inputs_of_later alike grownLeft grownRight inputs)

/-- Steps of both builders end in the same way and not in a fault, and the builders are alike
again. -/
inductive Together {α β : Type} (left right : Builder) (same : Builder → Builder → α → β → Prop) :
    Outcome Builder α → Outcome Builder β → Prop
  | ok {leftLater rightLater : Builder} {value : α} {twin : β} (alike : Alike leftLater rightLater)
      (grownLeft : Grown left leftLater) (grownRight : Grown right rightLater)
      (result : same leftLater rightLater value twin) :
      Together left right same (.ok value leftLater) (.ok twin rightLater)
  | error {leftLater rightLater : Builder} (cause : BuildError) (alike : Alike leftLater rightLater)
      (grownLeft : Grown left leftLater) (grownRight : Grown right rightLater) :
      Together left right same (.error cause leftLater) (.error cause rightLater)

namespace Together

variable {α β γ δ : Type}

theorem bind {same : Builder → Builder → α → β → Prop} {next : Builder → Builder → γ → δ → Prop}
    {first : Build Builder α} {firstTwin : Build Builder β} {second : α → Build Builder γ}
    {secondTwin : β → Build Builder δ}
    (together : Together left right same (first left) (firstTwin right))
    (rest : ∀ {leftLater rightLater : Builder} {value : α} {twin : β}, Alike leftLater rightLater →
      Grown left leftLater → Grown right rightLater → same leftLater rightLater value twin →
      Together leftLater rightLater next (second value leftLater) (secondTwin twin rightLater)) :
    Together left right next ((first >>= second) left) ((firstTwin >>= secondTwin) right) := by
  rw [Build.bind_apply, Build.bind_apply]
  generalize first left = outcome at together
  generalize firstTwin right = twinOutcome at together
  cases together with
  | @ok leftLater rightLater value twin alike grownLeft grownRight result =>
      have after := rest alike grownLeft grownRight result
      simp only
      generalize second value leftLater = last at after
      generalize secondTwin twin rightLater = twinLast at after
      cases after with
      | ok alike moreLeft moreRight result =>
          exact .ok alike (grownLeft.trans moreLeft) (grownRight.trans moreRight) result
      | error cause alike moreLeft moreRight =>
          exact .error cause alike (grownLeft.trans moreLeft) (grownRight.trans moreRight)
  | error cause alike grownLeft grownRight => exact .error cause alike grownLeft grownRight

theorem ask (alike : Alike left right) {question twinQuestion : Builder → Except Failure α}
    (same : question left = twinQuestion right)
    (answered : ∀ cause, question left ≠ .error (.fault cause)) :
    Together left right
      (fun leftLater rightLater value twin =>
        leftLater = left ∧ rightLater = right ∧ value = twin ∧ question left = .ok value)
      (Build.ask question left) (Build.ask twinQuestion right) := by
  unfold Build.ask
  rw [← same]
  cases answer : question left with
  | ok value => exact .ok alike (.refl left) (.refl right) ⟨rfl, rfl, rfl, rfl⟩
  | error failure =>
      cases failure with
      | error cause => exact .error cause alike (.refl left) (.refl right)
      | fault cause => exact absurd answer (answered cause)

theorem ask_then (alike : Alike left right) {question twinQuestion : Builder → Except Failure α}
    {next : Builder → Builder → γ → δ → Prop} {second : α → Build Builder γ}
    {secondTwin : α → Build Builder δ} (same : question left = twinQuestion right)
    (answered : ∀ cause, question left ≠ .error (.fault cause))
    (rest : ∀ value, question left = .ok value →
      Together left right next (second value left) (secondTwin value right)) :
    Together left right next ((Build.ask question >>= second) left)
      ((Build.ask twinQuestion >>= secondTwin) right) := by
  apply bind (ask alike same answered)
  rintro leftLater rightLater value twin - - - ⟨rfl, rfl, rfl, answer⟩
  exact rest value answer

end Together

theorem Alike.rightPlaced (alike : Alike left right) :
    right.block < right.graph.blocks.length := by
  rw [← alike.block, ← alike.blocks]
  exact alike.placed

theorem Alike.rightKnown (alike : Alike left right) {type : TypeId}
    (known : type < left.pool.size) : type < right.pool.size :=
  alike.pool ▸ known

theorem Alike.rightNumbered (alike : Alike left right) : right.graph.Numbered := by
  unfold Graph.Numbered
  rw [← alike.signature, ← alike.params]
  exact alike.numbered

theorem Alike.matched (alike : Alike left right) : Matched left right where
  forward own assigns :=
    ⟨_, assigns, alike.pool ▸ assigns.handedOver alike.numbered alike.signature,
      alike.numbered.handedOver_same own⟩
  backward other assigns := by
    have handed := assigns.handedOver alike.rightNumbered alike.signature.symm
    have same : right.graph.SameInputs left.graph other _ :=
      alike.rightNumbered.handedOver_same other
    exact ⟨_, alike.pool ▸ handed, assigns,
      fun index id twin made twinMade => (same index twin id twinMade made).symm⟩

theorem Alike.appended_left (alike : Alike left right) {kind : ValueKind} {type : TypeId}
    (allowed : Appendable InPool left kind type) : Alike (left.appended kind type) right where
  pool := alike.pool
  block := alike.block
  blocks := (List.length_modify ..).trans alike.blocks
  params := alike.params
  signature :=
    (Graph.signature_append_plain left.graph type left.block allowed.plain).trans alike.signature
  numbered := (congrArg (List.map Prod.fst)
    (Graph.signature_append_plain left.graph type left.block allowed.plain)).trans alike.numbered
  placed := appended_placed alike.placed kind type
  leftSound := sound_of_change alike.leftSound (.append alike.placed allowed)
  rightSound := alike.rightSound

theorem Alike.appended_right (alike : Alike left right) {kind : ValueKind} {type : TypeId}
    (allowed : Appendable InPool right kind type) : Alike left (right.appended kind type) where
  pool := alike.pool
  block := alike.block
  blocks := alike.blocks.trans (List.length_modify ..).symm
  params := alike.params
  signature := alike.signature.trans
    (Graph.signature_append_plain right.graph type right.block allowed.plain).symm
  numbered := alike.numbered
  placed := alike.placed
  leftSound := alike.leftSound
  rightSound := sound_of_change alike.rightSound (.append alike.rightPlaced allowed)

theorem twin_appended (leftValid : left.graph.Valid left.pool)
    (rightValid : right.graph.Valid right.pool) {kind twinKind : ValueKind} {type : TypeId}
    (older : ∀ operand ∈ kind.operands, operand < left.graph.size)
    (twinOlder : ∀ operand ∈ twinKind.operands, operand < right.graph.size)
    (parameter : ∀ index, twinKind = .parameter index → kind = .parameter index)
    (same : ∀ own other, Inputs (left.appended kind type) (right.appended twinKind type) own other →
      Value.meaning left.pool own left.graph.size (left.graph.denote left.pool own)
          ⟨kind, type, left.block⟩ =
        Value.meaning right.pool other right.graph.size (right.graph.denote right.pool other)
          ⟨twinKind, type, right.block⟩) :
    Twin (left.appended kind type) (right.appended twinKind type) left.graph.size
      right.graph.size := by
  refine ⟨⟨type, appended_type left kind type, appended_type right twinKind type⟩, ?_, ?_⟩
  · intro index made
    rw [appended_kind, Option.some.injEq] at made
    rw [appended_kind, parameter index made]
  · intro own other inputs
    apply (denote_appended leftValid own type older).trans
    exact (same own other inputs).trans (denote_appended rightValid other type twinOlder).symm

theorem together_append (alike : Alike left right) {kind twinKind : ValueKind} {type : TypeId}
    (allowed : Appendable InPool left kind type)
    (twinAllowed : Appendable InPool right twinKind type)
    (same : ∀ own other, Inputs (left.appended kind type) (right.appended twinKind type) own other →
      Value.meaning left.pool own left.graph.size (left.graph.denote left.pool own)
          ⟨kind, type, left.block⟩ =
        Value.meaning right.pool other right.graph.size (right.graph.denote right.pool other)
          ⟨twinKind, type, right.block⟩) :
    Together left right Twin (append kind type left) (append twinKind type right) := by
  rw [append_of_placed alike.placed, append_of_placed alike.rightPlaced]
  have older := (fits_of_appendable alike.leftSound allowed).older
  have twinOlder := (fits_of_appendable alike.rightSound twinAllowed).older
  have twins := twin_appended alike.leftSound.valid alike.rightSound.valid older twinOlder
    (fun index made => absurd made (twinAllowed.plain index)) same
  exact .ok ((alike.appended_left allowed).appended_right twinAllowed) (.appended left kind type)
    (.appended right twinKind type) twins

theorem together_null (alike : Alike left right) {type : TypeId} (known : type < left.pool.size) :
    Together left right Twin (null type left) (null type right) := by
  apply together_append alike (.null fun _ => known) (.null fun _ => alike.rightKnown known)
  intro own other inputs
  exact congrArg (fun pool => pool.defaultOf type) alike.pool

theorem together_constant (alike : Alike left right) (value : Constant) :
    Together left right Twin (constant value left) (constant value right) :=
  together_append alike (.constant value) (.constant value) fun _ _ _ => rfl

theorem Alike.parameter (alike : Alike left right) {type : TypeId} (known : type < left.pool.size) :
    Alike (left.counted.appended (.parameter left.graph.params) type)
      (right.counted.appended (.parameter right.graph.params) type) where
  pool := alike.pool
  block := alike.block
  blocks := (List.length_modify ..).trans (alike.blocks.trans (List.length_modify ..).symm)
  params := congrArg (· + 1) alike.params
  signature := by
    have listed := Graph.signature_append left.graph (.parameter left.graph.params) type left.block
    have twinListed :=
      Graph.signature_append right.graph (.parameter right.graph.params) type right.block
    simp only [alike.signature, alike.params] at listed
    simp only [alike.params]
    exact listed.trans twinListed.symm
  numbered := alike.numbered.next type left.block
  placed := Nat.lt_of_lt_of_eq alike.placed (List.length_modify ..).symm
  leftSound := sound_of_change alike.leftSound (.parameter alike.placed known)
  rightSound :=
    sound_of_change alike.rightSound (.parameter alike.rightPlaced (alike.rightKnown known))

/-- Parameters of the same step have the same index, and so they are given the same data. -/
theorem together_parameter (alike : Alike left right) {type : TypeId}
    (known : type < left.pool.size) (room : left.graph.params + 1 < paramLimit) :
    Together left right Twin (parameter type left) (parameter type right) := by
  unfold parameter
  rw [if_pos room, if_pos (alike.params ▸ room)]
  have leftPlaced : left.counted.block < left.counted.graph.blocks.length := alike.placed
  have rightPlaced : right.counted.block < right.counted.graph.blocks.length := alike.rightPlaced
  have leftOutcome := append_of_placed leftPlaced (.parameter left.graph.params) type
  have rightOutcome := append_of_placed rightPlaced (.parameter right.graph.params) type
  refine leftOutcome.symm ▸ rightOutcome.symm ▸ ?_
  have leftChange : Change InPool left _ := .parameter alike.placed known
  have rightChange : Change InPool right _ :=
    .parameter alike.rightPlaced (alike.rightKnown known)
  refine .ok (alike.parameter known) (grown_of_change leftChange) (grown_of_change rightChange) ?_
  apply twin_appended (counted_sound alike.leftSound).valid (counted_sound alike.rightSound).valid
  · exact List.forall_mem_nil _
  · exact List.forall_mem_nil _
  · intro index made
    rw [alike.params, made]
  · intro own other inputs
    apply inputs.same left.graph.params
    · exact appended_kind left.counted _ type
    · rw [alike.params]
      exact appended_kind right.counted _ type

theorem exhausted_of_numbered {builder : Builder} (numbered : builder.graph.Numbered)
    (used : ¬ builder.graph.params + 1 < paramLimit) : builder.Exhausted where
  used := used
  counted := by
    have indices := congrArg List.length numbered
    rwa [List.length_map, List.length_range] at indices

theorem Exhausted.stops {builder : Builder} (exhausted : builder.Exhausted)
    (reader : ValueId → Path → Build Builder ValueId) (type : TypeId) :
    (Operation.parameter type).runWith reader builder = .fault (.overflow .add) := by
  have stopped : parameter type builder = .fault (.overflow .add) := if_neg exhausted.used
  change (parameter type >>= fun id => pure (Result.value id)) builder = _
  rw [Build.bind_apply, stopped]

theorem together_intern (alike : Alike left right) {fields : List TypeId}
    (known : ∀ field ∈ fields, field < left.pool.size) :
    Together left right (fun later _ type twin => type = twin ∧ type < later.pool.size)
      (.ok (left.pool.intern fields).1 { left with pool := (left.pool.intern fields).2 })
      (.ok (right.pool.intern fields).1 { right with pool := (right.pool.intern fields).2 }) := by
  have leftChange : Change InPool left _ := .intern known
  have rightChange : Change InPool right _ :=
    .intern fun field member => alike.rightKnown (known field member)
  have leftSound := sound_of_change alike.leftSound leftChange
  have stored := Pool.intern_stored left.pool fields leftSound.wellFormed
  refine .ok ?_ (grown_of_change leftChange) (grown_of_change rightChange)
    ⟨congrArg (fun pool => (pool.intern fields).1) alike.pool, lt_of_stored stored⟩
  exact
    { alike with
      pool := congrArg (fun pool => (pool.intern fields).2) alike.pool
      leftSound := leftSound
      rightSound := sound_of_change alike.rightSound rightChange }

theorem together_recordType (alike : Alike left right) {fields : List TypeId}
    (known : ∀ field ∈ fields, field < left.pool.size) :
    Together left right (fun later _ type twin => type = twin ∧ type < later.pool.size)
      (recordType fields left) (recordType fields right) := by
  have inside := (Pool.all_contained_iff left.pool fields).mpr known
  unfold recordType
  rw [if_pos inside, if_pos (alike.pool ▸ inside)]
  exact together_intern alike known

theorem together_newBlock (alike : Alike left right) :
    Together left right (fun _ _ block twin => block = twin) (newBlock left) (newBlock right) := by
  have leftChange : Change InPool left _ := .block
  have rightChange : Change InPool right _ := .block
  have leftGrown := grown_of_change leftChange
  have blocks : left.graph.addBlock.blocks.length = right.graph.addBlock.blocks.length := by
    unfold Graph.addBlock
    rw [List.length_append, List.length_append, alike.blocks]
  refine .ok ?_ leftGrown (grown_of_change rightChange) alike.blocks
  exact
    { alike with
      blocks := blocks
      placed := Nat.lt_of_lt_of_le alike.placed leftGrown.blocks
      leftSound := sound_of_change alike.leftSound leftChange
      rightSound := sound_of_change alike.rightSound rightChange }

theorem together_positionAt (alike : Alike left right) {block : BlockId}
    (inside : block < left.graph.blocks.length) :
    Together left right (fun _ _ _ _ => True) (positionAt block left) (positionAt block right) := by
  unfold positionAt
  rw [if_pos inside, if_pos (alike.blocks ▸ inside)]
  have leftChange : Change InPool left _ := .position inside
  have rightChange : Change InPool right _ := .position (alike.blocks ▸ inside)
  refine .ok ?_ (grown_of_change leftChange) (grown_of_change rightChange) trivial
  exact
    { alike with
      block := rfl
      placed := inside
      leftSound := sound_of_change alike.leftSound leftChange
      rightSound := sound_of_change alike.rightSound rightChange }

theorem together_reopen (alike : Alike left right) :
    Together left right SameResult (Operation.reopen.run left) (Operation.reopen.run right) := by
  have leftChange : Change InPool left _ := .reopen
  have rightChange : Change InPool right _ := .reopen
  have first : 0 < left.graph.blocks.length := Nat.lt_of_le_of_lt (Nat.zero_le _) alike.placed
  refine .ok ?_ (grown_of_change leftChange) (grown_of_change rightChange) rfl
  exact
    { alike with
      block := rfl
      placed := first
      leftSound := sound_of_change alike.leftSound leftChange
      rightSound := sound_of_change alike.rightSound rightChange }

theorem together_defaultRecord (alike : Alike left right) (type : TypeId) :
    Together left right Twin (defaultRecord type left) (defaultRecord type right) := by
  apply Together.ask_then alike
  · rw [alike.pool]
  · intro cause
    cases left.pool.fieldsOf type <;> exact fun same => by cases same
  · intro _ checked
    apply together_null alike
    cases record : left.pool.fieldsOf type with
    | ok fields => exact lt_of_stored ((Pool.fieldsOf_eq_ok_iff left.pool type fields).mp record)
    | error found =>
        rw [record] at checked
        cases checked

theorem together_write (alike : Alike left right) {object twin value valueTwin : ValueId}
    (objects : Twin left right object twin) (values : Twin left right value valueTwin)
    (path : Path) :
    Together left right Twin (write object path value left) (write twin path valueTwin right) := by
  obtain ⟨whole, typed, twinTyped⟩ := objects.typed
  obtain ⟨type, part, twinPart⟩ := values.typed
  have same := writeType_congr alike.pool typed twinTyped part twinPart path
  apply Together.ask_then alike same
  · exact writeType_ne_fault alike.leftSound.wellFormed.ordered typed part path
  · intro written checked
    apply together_append alike (.write checked) (.write (same ▸ checked))
    intro own other inputs
    have before :=
      inputs_of_later alike (.appended left _ written) (.appended right _ written) inputs
    simp only [Value.meaning, objects.denotes own other before, values.denotes own other before]

theorem together_writeFields (alike : Alike left right) {object twin : ValueId}
    (objects : Twin left right object twin) (index : Nat) {values twins : List ValueId}
    (parts : List.Forall₂ (Twin left right) values twins) :
    Together left right Twin (writeFields object index values left)
      (writeFields twin index twins right) := by
  induction values generalizing left right object twin index twins with
  | nil =>
      cases parts
      exact .ok alike (.refl left) (.refl right) objects
  | cons value values ih =>
      cases parts with
      | cons first rest =>
          apply Together.bind (together_write alike objects first [index])
          intro leftLater rightLater later laterTwin nextAlike grownLeft grownRight written
          apply ih nextAlike written (index + 1)
          exact rest.imp fun _ _ twins => twin_of_grown alike grownLeft grownRight twins

theorem types_of_twins (alike : Alike left right) {values twins : List ValueId}
    (parts : List.Forall₂ (Twin left right) values twins) :
    ∃ fields : List TypeId, values.map left.graph.type? = fields.map some ∧
      twins.map right.graph.type? = fields.map some ∧ ∀ field ∈ fields, field < left.pool.size := by
  induction parts with
  | nil => exact ⟨[], rfl, rfl, fun field member => absurd member List.not_mem_nil⟩
  | cons first rest ih =>
      obtain ⟨type, typed, twinTyped⟩ := first.typed
      obtain ⟨fields, same, twinSame, known⟩ := ih
      refine ⟨type :: fields, ?_, ?_, ?_⟩
      · rw [List.map_cons, List.map_cons, typed, same]
      · rw [List.map_cons, List.map_cons, twinTyped, twinSame]
      · intro field member
        rcases List.mem_cons.mp member with rfl | older
        · exact alike.leftSound.valid.known_of_type? typed
        · exact known field older

theorem together_typeOfFields (alike : Alike left right) {values twins : List ValueId}
    (parts : List.Forall₂ (Twin left right) values twins) :
    Together left right (fun later _ type twin => type = twin ∧ type < later.pool.size)
      (typeOfFields values left) (typeOfFields twins right) := by
  obtain ⟨fields, typed, twinTyped, known⟩ := types_of_twins alike parts
  rw [typeOfFields_of_typed typed known, typeOfFields_of_typed twinTyped (alike.pool ▸ known)]
  exact together_intern alike known

theorem together_recordOf (alike : Alike left right) {operands twins : List ValueId}
    (parts : List.Forall₂ (Twin left right) operands twins) :
    Together left right Twin (recordOf operands left) (recordOf twins right) := by
  unfold recordOf
  cases parts with
  | nil => exact .error .noOperands alike (.refl left) (.refl right)
  | @cons operand twin operands twins first rest =>
      have parts : List.Forall₂ (Twin left right) (operand :: operands) (twin :: twins) :=
        .cons first rest
      apply Together.bind (together_typeOfFields alike parts)
      rintro leftTyped rightTyped type typeTwin typedAlike grownLeft grownRight ⟨rfl, known⟩
      apply Together.bind (together_null typedAlike known)
      intro leftMade rightMade object objectTwin madeAlike moreLeft moreRight objects
      apply together_writeFields madeAlike objects 0
      exact parts.imp fun _ _ twins =>
        twin_of_grown alike (grownLeft.trans moreLeft) (grownRight.trans moreRight) twins

theorem Alike.answered (alike : Alike left right) {object : ValueId} {path : Path} {field : TypeId}
    (found : left.graph.fieldType left.pool object path = .ok field) {answer : Answer}
    (typed : left.graph.AnswerTyped left.pool field answer) :
    ∃ result later, left.answered answer = .ok result later ∧ Alike later right ∧
      Grown left later := by
  cases answer with
  | stored value => exact ⟨value, left, rfl, alike, .refl left⟩
  | initial type =>
      cases typed
      have allowed : Appendable InPool left .null field :=
        .null fun wellFormed => Graph.fieldType_lt wellFormed.ordered found
      exact ⟨_, _, rfl, alike.appended_left allowed, .appended left .null field⟩
  | load source inner type =>
      obtain ⟨rfl, inside, whole, sourceTyped, reached⟩ := typed
      have sourceFound := (Graph.fieldType_eq_ok_iff left.graph left.pool source inner type).mpr
        ⟨whole, sourceTyped, inside, reached⟩
      exact ⟨_, _, rfl, alike.appended_left (.read sourceFound), .appended left _ type⟩

theorem twin_read (alike : Alike left right) {object twin result : ValueId} {path : Path}
    {field : TypeId} (objects : Twin left right object twin)
    (found : left.graph.fieldType left.pool object path = .ok field) {answer : Answer}
    (located : left.graph.Located left.pool object path answer)
    (ended : left.answered answer = .ok result leftLater) (grown : Grown left leftLater)
    (resultTyped : leftLater.graph.type? result = some field)
    (twinAllowed : Appendable InPool right (.read twin path) field) :
    Twin leftLater (right.appended (.read twin path) field) result right.graph.size := by
  refine ⟨⟨field, resultTyped, appended_type right _ field⟩, ?_, ?_⟩
  · intro index made
    rw [appended_kind] at made
    cases made
  · intro own other inputs
    have before := inputs_of_later alike grown (.appended right _ field) inputs
    have valid := alike.leftSound.valid
    have ordered := alike.leftSound.wellFormed.ordered
    obtain ⟨whole, typed, some, reached⟩ :=
      (Graph.fieldType_eq_ok_iff left.graph left.pool object path field).mp found
    obtain ⟨part, present, -⟩ :=
      (valid.denote_typed ordered before.ownTyped object whole typed).at? reached
    have forwarded := answered_denotes valid (Option.isSome_of_eq_some present)
      (located.typed valid.coherent typed some reached)
      (located.holds valid ordered before.ownTyped typed reached) ended
    have twinFits := fits_of_appendable alike.rightSound twinAllowed
    have plain := denote_appended alike.rightSound.valid other field twinFits.older
    rw [objects.denotes own other before] at forwarded
    refine Eq.trans ?_ plain.symm
    simp only [Value.meaning, forwarded, Option.getD_some]

theorem together_read (alike : Alike left right) {object twin : ValueId}
    (objects : Twin left right object twin) (path : Path) :
    Together left right Twin (read object path left) (load twin path right) := by
  obtain ⟨whole, typed, twinTyped⟩ := objects.typed
  have same : left.graph.fieldType left.pool object path =
      right.graph.fieldType right.pool twin path :=
    alike.pool ▸ Graph.fieldType_congr typed twinTyped path
  unfold load
  rw [Build.bind_apply]
  cases found : left.graph.fieldType left.pool object path with
  | error failure =>
      cases failure with
      | fault cause => exact absurd found (Graph.fieldType_ne_fault typed path cause)
      | error cause =>
          rw [read_of_fieldType_error found]
          simp only [Build.ask, same.symm.trans found]
          exact .error cause alike (.refl left) (.refl right)
  | ok field =>
      have twinAllowed : Appendable InPool right (.read twin path) field :=
        .read (same.symm.trans found)
      have coherent := alike.leftSound.valid.coherent
      obtain ⟨answer, ended, located⟩ := read_found coherent alike.placed found
      obtain ⟨other, otherTyped, some, reached⟩ :=
        (Graph.fieldType_eq_ok_iff left.graph left.pool object path field).mp found
      have answerTyped := located.typed coherent otherTyped some reached
      obtain ⟨result, later, ok, laterAlike, grown⟩ := alike.answered found answerTyped
      have twins := twin_read alike objects found located ok grown
        (answered_typed answerTyped ok) twinAllowed
      rw [ended, ok]
      simp only [Build.ask, same.symm.trans found, append_of_placed alike.rightPlaced]
      exact .ok (laterAlike.appended_right twinAllowed) grown (.appended right _ field) twins

theorem Together.wrap {α β γ δ : Type} {same : Builder → Builder → α → β → Prop}
    {next : Builder → Builder → γ → δ → Prop} {step : Build Builder α} {twinStep : Build Builder β}
    (together : Together left right same (step left) (twinStep right)) (result : α → γ)
    (twinResult : β → δ)
    (wrapped : ∀ {leftLater rightLater value twin}, same leftLater rightLater value twin →
      next leftLater rightLater (result value) (twinResult twin)) :
    Together left right next ((step >>= fun value => pure (result value)) left)
      ((twinStep >>= fun twin => pure (twinResult twin)) right) :=
  together.bind fun alike _ _ given => .ok alike (.refl _) (.refl _) (wrapped given)

theorem Together.value {step twinStep : Build Builder ValueId}
    (together : Together left right Twin (step left) (twinStep right)) :
    Together left right SameResult ((step >>= fun id => pure (Result.value id)) left)
      ((twinStep >>= fun id => pure (Result.value id)) right) :=
  together.wrap Result.value Result.value fun twins => twins

theorem Together.agree {outcome twinOutcome : Outcome Builder Result}
    (together : Together left right SameResult outcome twinOutcome) (step : Operation Nat) :
    Agree left right step outcome twinOutcome := by
  cases together with
  | ok alike grownLeft grownRight result => exact .ok alike.pool alike.matched result
  | error cause alike grownLeft grownRight => exact .error cause alike.pool

end Builder

namespace Session

/-- Sessions of one program: the builders are alike, and the same steps gave twins. -/
structure Paired (left right : Session) : Prop where
  builders : left.builder.Alike right.builder
  values : List.Forall₂ (Option.Rel (Twin left.builder right.builder)) left.values right.values

variable {left right : Session}

theorem Paired.value? (paired : Paired left right) (step : Nat) :
    Option.Rel (Twin left.builder right.builder) (left.value? step) (right.value? step) := by
  have values := paired.values
  unfold Session.value?
  generalize left.values = own at values
  generalize right.values = other at values
  induction values generalizing step with
  | nil => exact .none
  | cons first rest ih =>
      cases step with
      | zero => exact first
      | succ step => exact ih step

theorem Paired.value_found (paired : Paired left right) {step : Nat} {id : ValueId}
    (found : left.value? step = some id) :
    ∃ twin, right.value? step = some twin ∧ Twin left.builder right.builder id twin := by
  have related := paired.value? step
  rw [found] at related
  generalize right.value? step = other at related
  cases related with
  | some twins => exact ⟨_, rfl, twins⟩

theorem Paired.values_found (paired : Paired left right) {steps : List Nat} {ids : List ValueId}
    (found : steps.mapM left.value? = some ids) :
    ∃ twins, steps.mapM right.value? = some twins ∧
      List.Forall₂ (Twin left.builder right.builder) ids twins := by
  induction steps generalizing ids with
  | nil =>
      cases found
      exact ⟨[], rfl, .nil⟩
  | cons step steps ih =>
      simp only [List.mapM_cons, Option.bind_eq_bind, Option.bind_eq_some_iff] at found
      obtain ⟨id, first, others, rest, same⟩ := found
      cases same
      obtain ⟨twin, twinFirst, twins⟩ := paired.value_found first
      obtain ⟨otherTwins, twinRest, related⟩ := ih rest
      refine ⟨twin :: otherTwins, ?_, .cons twins related⟩
      rw [List.mapM_cons, twinFirst, twinRest]
      rfl

theorem Paired.step (paired : Paired left right) {step : Operation Nat} {own : Operation ValueId}
    (named : step.named? left.value? = some own) (known : own.KnownHandles left.builder)
    (room : ∀ type, step = .parameter type →
      left.builder.graph.params + 1 < Builder.paramLimit) :
    ∃ other, step.named? right.value? = some other ∧
      Builder.Together left.builder right.builder SameResult
        (own.runWith Builder.read left.builder) (other.runWith Builder.load right.builder) := by
  have alike := paired.builders
  cases step with
  | recordType fields =>
      cases named
      exact ⟨_, rfl, (Builder.together_recordType alike known).wrap Result.type Result.type
        fun same => congrArg Result.type same.1⟩
  | newBlock =>
      cases named
      exact ⟨_, rfl, (Builder.together_newBlock alike).wrap Result.block Result.block
        fun same => congrArg Result.block same⟩
  | positionAt block =>
      cases named
      exact ⟨_, rfl, (Builder.together_positionAt alike known).wrap (fun _ => Result.nothing)
        (fun _ => Result.nothing) fun _ => rfl⟩
  | reopen =>
      cases named
      exact ⟨_, rfl, Builder.together_reopen alike⟩
  | null type =>
      cases named
      exact ⟨_, rfl, (Builder.together_null alike known).value⟩
  | parameter type =>
      cases named
      exact ⟨_, rfl, (Builder.together_parameter alike known (room type rfl)).value⟩
  | constant value =>
      cases named
      exact ⟨_, rfl, (Builder.together_constant alike value).value⟩
  | defaultRecord type =>
      cases named
      exact ⟨_, rfl, (Builder.together_defaultRecord alike type).value⟩
  | recordOf operands =>
      obtain ⟨ids, found, same⟩ := Option.map_eq_some_iff.mp named
      cases same
      obtain ⟨twins, twinsFound, parts⟩ := paired.values_found found
      refine ⟨.recordOf twins, ?_, (Builder.together_recordOf alike parts).value⟩
      exact congrArg (Option.map Operation.recordOf) twinsFound
  | read object path =>
      obtain ⟨id, found, same⟩ := Option.map_eq_some_iff.mp named
      cases same
      obtain ⟨twin, twinFound, twins⟩ := paired.value_found found
      refine ⟨.read twin path, ?_, (Builder.together_read alike twins path).value⟩
      exact congrArg (Option.map fun id => Operation.read id path) twinFound
  | write object path value =>
      obtain ⟨id, found, rest⟩ := Option.bind_eq_some_iff.mp named
      obtain ⟨part, partFound, same⟩ := Option.map_eq_some_iff.mp rest
      cases same
      obtain ⟨twin, twinFound, twins⟩ := paired.value_found found
      obtain ⟨partTwin, partTwinFound, partTwins⟩ := paired.value_found partFound
      refine ⟨.write twin path partTwin, ?_,
        (Builder.together_write alike twins partTwins path).value⟩
      simp only [Operation.named?, twinFound, partTwinFound, Option.bind_some, Option.map_some]

theorem Paired.after (paired : Paired left right) {leftLater rightLater : Session}
    {outcome twinOutcome : Outcome Builder Result}
    (together : Builder.Together left.builder right.builder SameResult outcome twinOutcome)
    (leftAfter : left.after? outcome = some leftLater)
    (rightAfter : right.after? twinOutcome = some rightLater) : Paired leftLater rightLater := by
  have kept : ∀ {leftBuilder rightBuilder : Builder}, Builder.Grown left.builder leftBuilder →
      Builder.Grown right.builder rightBuilder →
      List.Forall₂ (Option.Rel (Twin leftBuilder rightBuilder)) left.values right.values := by
    intro leftBuilder rightBuilder grownLeft grownRight
    apply paired.values.imp
    rintro _ _ (twins | -)
    · exact .some (Builder.twin_of_grown paired.builders grownLeft grownRight twins)
    · exact .none
  cases together with
  | ok alike grownLeft grownRight same =>
      cases leftAfter
      cases rightAfter
      exact ⟨alike, List.rel_append (kept grownLeft grownRight) (.cons same.value? .nil)⟩
  | error cause alike grownLeft grownRight =>
      cases leftAfter
      cases rightAfter
      exact ⟨alike, List.rel_append (kept grownLeft grownRight) (.cons .none .nil)⟩

theorem start_paired : Paired start start where
  builders := ⟨rfl, rfl, rfl, rfl, rfl, rfl, Nat.one_pos, Builder.empty_sound, Builder.empty_sound⟩
  values := .nil

theorem Paired.exhausted_inStep (paired : Paired left right) (type : TypeId)
    (used : ¬ left.builder.graph.params + 1 < Builder.paramLimit)
    (program : List (Operation Nat)) : InStep (.parameter type :: program) left right := by
  have alike := paired.builders
  have own := Builder.exhausted_of_numbered alike.numbered used
  have other := Builder.exhausted_of_numbered alike.rightNumbered (alike.params ▸ used)
  refine ⟨.parameter type, .parameter type, rfl, rfl, ?_, ?_⟩
  · rw [own.stops, other.stops]
    exact .exhausted type own other
  · intro leftLater rightLater leftAfter
    rw [own.stops] at leftAfter
    cases leftAfter

theorem Paired.inStep (paired : Paired left right) {program : List (Operation Nat)}
    (admissible : Admissible program left) : InStep program left right := by
  induction program generalizing left right with
  | nil => trivial
  | cons step program ih =>
      obtain ⟨own, named, known, rest⟩ := admissible
      by_cases room : ∀ type, step = .parameter type →
          left.builder.graph.params + 1 < Builder.paramLimit
      · obtain ⟨other, twinNamed, together⟩ := paired.step named known room
        refine ⟨own, other, named, twinNamed, together.agree step, ?_⟩
        intro leftLater rightLater leftAfter rightAfter
        exact ih (paired.after together leftAfter rightAfter) (rest leftLater leftAfter)
      · simp only [Classical.not_forall] at room
        obtain ⟨type, rfl, used⟩ := room
        cases named
        exact paired.exhausted_inStep type used program

/-- Played from the empty builder, a program cannot tell a builder that forwards reads from one that
appends every read. -/
theorem forwarding_refines_plain_reads {program : List (Operation Nat)}
    (admissible : Admissible program start) : InStep program start start :=
  start_paired.inStep admissible

/-- A pair is made of a parameter and a constant, one of its fields is replaced, and then a field is
read from the pair, which only the plain builder appends; a write of the wrong type fails. -/
theorem pair_program_in_step :
    let program : List (Operation Nat) :=
      [.parameter 4, .constant (.int1 true), .recordOf [0, 1], .defaultRecord 9, .write 2 [0] 0,
        .read 4 [1], .write 4 [0] 5, .write 3 [1] 5]
    Admissible program start ∧ InStep program start start := by
  intro program
  have admissible : Admissible program start := by decide
  exact ⟨admissible, forwarding_refines_plain_reads admissible⟩

end Session

end KernelIR
