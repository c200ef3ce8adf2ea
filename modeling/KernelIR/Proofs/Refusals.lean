import KernelIR.Proofs.Mirrors

/-!
Where a conversion stops. An instance is walked along its leaves, in the order of the fields and
down through composites; on the way there may be instances that have no value, and fields that were
declared but are missing. What is made of the leaves is always assembled, so nothing but the walk
and the factory decides how a conversion ends. Main statement: a conversion fails exactly if the
walk comes to something that is refused or to a leaf that the factory rejects; the first of these
gives the error, and until then the factory is called once for each leaf, in the order of the walk.
-/

set_option autoImplicit false

namespace KernelIR

namespace Builder

/-- The value is there, and its type is in the pool. -/
def Knows (builder : Builder) (value : ValueId) : Prop :=
  ∃ type, builder.graph.type? value = some type ∧ type < builder.pool.size

variable {builder later : Builder}

theorem Knows.of_grown {value : ValueId} (known : builder.Knows value)
    (grown : Grown builder later) : later.Knows value := by
  obtain ⟨type, typed, inside⟩ := known
  exact ⟨type, Graph.type?_of_grown grown.values typed,
    Nat.lt_of_lt_of_le inside grown.types.length_le⟩

theorem types_of_known {values : List ValueId} (known : ∀ value ∈ values, builder.Knows value) :
    ∃ types : List TypeId, values.map builder.graph.type? = types.map some ∧
      ∀ type ∈ types, type < builder.pool.size := by
  induction values with
  | nil => exact ⟨[], rfl, List.forall_mem_nil _⟩
  | cons value values ih =>
      rw [List.forall_mem_cons] at known
      obtain ⟨type, typed, inside⟩ := known.1
      obtain ⟨types, others, allInside⟩ := ih known.2
      refine ⟨type :: types, ?_, List.forall_mem_cons.mpr ⟨inside, allInside⟩⟩
      rw [List.map_cons, List.map_cons, typed, others]

theorem assemble_of_known (tidy : builder.Tidy) {values : List ValueId}
    (known : ∀ value ∈ values, builder.Knows value) :
    ∃ result later, Host.assemble values builder = .ok result later := by
  obtain ⟨types, typed, inside⟩ := types_of_known known
  exact ⟨_, _, assemble_of_typed tidy.placed tidy.wellFormed typed inside⟩

theorem Assembled.knows {values : List ValueId} {result : ValueId}
    (assembled : Assembled builder values result later) : later.Knows result := by
  obtain ⟨type, types, typed, record, -⟩ := assembled.record
  exact ⟨type, typed, lt_of_stored record⟩

end Builder

namespace Host

variable {τ α β γ : Type}

/-- What a walk along an instance comes to: its parts besides the composites, and fields that its
description does not supply. -/
inductive Node (α : Type) where
  | null
  | leaf (own : α)
  | reference (typeName : String)
  | array (typeName : String)
  | missing

def Node.refusal? : Node α → Option BuildError
  | .null => some .nullInstance
  | .leaf _ => none
  | .reference typeName => some (.unsupportedHost typeName .reference)
  | .array typeName => some (.unsupportedHost typeName .array)
  | .missing => some .missingField

mutual

def walk : Host α → List (Node α)
  | .null => [.null]
  | .primitive leaf => [.leaf leaf]
  | .enumeration leaf => [.leaf leaf]
  | .reference typeName => [.reference typeName]
  | .array typeName => [.array typeName]
  | .composite declared fields => walkFields declared fields

/-- A composite has as many fields as it declares, also where there are fewer or more. -/
def walkFields : Nat → List (Host α) → List (Node α)
  | 0, _ => []
  | declared + 1, [] => List.replicate (declared + 1) .missing
  | declared + 1, field :: fields => walk field ++ walkFields declared fields

end

mutual

/-- No composite on the walk declares more fields than a list can hold. -/
def Allocatable : Host α → Prop
  | .composite declared fields => declared ≤ fieldLimit ∧ AllocatableFields declared fields
  | _ => True

def AllocatableFields : Nat → List (Host α) → Prop
  | 0, _ => True
  | _ + 1, [] => True
  | declared + 1, field :: fields => Allocatable field ∧ AllocatableFields declared fields

end

structure Call (α : Type) where
  leaf : α
  answer : Except BuildError ValueId

def recorded (factory : Factory τ α) : Factory (List (Call α) × τ) α :=
  fun leaf ((calls, tally), builder) =>
    match factory leaf (tally, builder) with
    | .ok value (tally, later) => .ok value ((calls ++ [⟨leaf, .ok value⟩], tally), later)
    | .error cause (tally, later) =>
        .error cause ((calls ++ [⟨leaf, .error cause⟩], tally), later)
    | .fault cause => .fault cause

structure Passed (nodes : List (Node α)) (calls : List (Call α)) : Prop where
  leaves : nodes = calls.map fun call => .leaf call.leaf
  accepted : ∀ call ∈ calls, ∃ value, call.answer = .ok value

/-- Behind nodes that were passed there is one that is refused, or a leaf that the factory rejects
at its call. -/
inductive Stopped : List (Node α) → List (Call α) → BuildError → Prop
  | refused {before rest : List (Node α)} {calls : List (Call α)} {node : Node α}
      {cause : BuildError} (passed : Passed before calls) (refused : node.refusal? = some cause) :
      Stopped (before ++ node :: rest) calls cause
  | rejected {before : List (Node α)} {calls : List (Call α)} {leaf : α} {cause : BuildError}
      (passed : Passed before calls) (rest : List (Node α)) :
      Stopped (before ++ .leaf leaf :: rest) (calls ++ [⟨leaf, .error cause⟩]) cause

section Walks

variable {nodes more : List (Node α)} {calls others : List (Call α)} {cause : BuildError}

theorem passed_nil : Passed ([] : List (Node α)) [] := ⟨rfl, List.forall_mem_nil _⟩

theorem Passed.append (first : Passed nodes calls) (second : Passed more others) :
    Passed (nodes ++ more) (calls ++ others) where
  leaves := by rw [first.leaves, second.leaves, List.map_append]
  accepted := List.forall_mem_append.mpr ⟨first.accepted, second.accepted⟩

theorem Stopped.append (stopped : Stopped nodes calls cause) (more : List (Node α)) :
    Stopped (nodes ++ more) calls cause := by
  cases stopped with
  | refused passed refused =>
      rw [List.append_assoc, List.cons_append]
      exact .refused passed refused
  | rejected passed rest =>
      rw [List.append_assoc, List.cons_append]
      exact .rejected passed (rest ++ more)

theorem Passed.stopped (passed : Passed nodes calls) (stopped : Stopped more others cause) :
    Stopped (nodes ++ more) (calls ++ others) cause := by
  cases stopped with
  | refused inner refused =>
      rw [← List.append_assoc]
      exact .refused (passed.append inner) refused
  | rejected inner rest =>
      rw [← List.append_assoc, ← List.append_assoc]
      exact .rejected (passed.append inner) rest

def Bad (nodes : List (Node α)) (calls : List (Call α)) : Prop :=
  (∃ node ∈ nodes, ∃ cause, node.refusal? = some cause) ∨
    ∃ call ∈ calls, ∃ cause, call.answer = .error cause

theorem Passed.not_bad (passed : Passed nodes calls) : ¬ Bad nodes calls := by
  rintro (⟨node, member, cause, refused⟩ | ⟨call, member, cause, rejected⟩)
  · rw [passed.leaves] at member
    obtain ⟨call, -, rfl⟩ := List.mem_map.mp member
    cases refused
  · obtain ⟨value, accepted⟩ := passed.accepted call member
    rw [accepted] at rejected
    cases rejected

theorem Stopped.bad (stopped : Stopped nodes calls cause) : Bad nodes calls := by
  cases stopped with
  | refused passed refused =>
      exact .inl ⟨_, List.mem_append_right _ List.mem_cons_self, cause, refused⟩
  | rejected passed rest =>
      exact .inr ⟨_, List.mem_append_right _ List.mem_cons_self, cause, rfl⟩

end Walks

/-- A step that comes to these nodes ends in the same way with a factory and with a recorded one,
and what was recorded agrees with the nodes and with how it has ended. -/
inductive Settles (nodes : List (Node α)) (log : List (Call α)) :
    Outcome (τ × Builder) β → Outcome ((List (Call α) × τ) × Builder) β → Prop
  | passed {calls : List (Call α)} (passed : Passed nodes calls) (value : β)
      (later : τ × Builder) :
      Settles nodes log (.ok value later) (.ok value ((log ++ calls, later.1), later.2))
  | stopped {calls : List (Call α)} {cause : BuildError} (stopped : Stopped nodes calls cause)
      (later : τ × Builder) :
      Settles nodes log (.error cause later) (.error cause ((log ++ calls, later.1), later.2))

section Settles

variable {nodes more : List (Node α)} {log : List (Call α)}

theorem settles_nothing (log : List (Call α)) (value : β) (later : τ × Builder) :
    Settles [] log (.ok value later) (.ok value ((log, later.1), later.2)) := by
  have settled : Settles [] log (.ok value later) (.ok value ((log ++ [], later.1), later.2)) :=
    .passed passed_nil value later
  rw [List.append_nil] at settled
  exact settled

theorem settles_refused {node : Node α} {cause : BuildError} (refused : node.refusal? = some cause)
    (log : List (Call α)) (rest : List (Node α)) (start : τ × Builder) :
    Settles (node :: rest) log (.error cause start : Outcome (τ × Builder) β)
      (.error cause ((log, start.1), start.2)) := by
  have settled : Settles (node :: rest) log (.error cause start : Outcome (τ × Builder) β)
      (.error cause ((log ++ [], start.1), start.2)) :=
    .stopped (.refused passed_nil refused) start
  rw [List.append_nil] at settled
  exact settled

/-- Two steps in a row come to the nodes of the first one, and if these are passed, to those of the
second one. -/
theorem Settles.bind {first : Build (τ × Builder) β} {next : β → Build (τ × Builder) γ}
    {twin : Build ((List (Call α) × τ) × Builder) β}
    {twinNext : β → Build ((List (Call α) × τ) × Builder) γ} {start : τ × Builder}
    {twinStart : (List (Call α) × τ) × Builder}
    (begun : Settles nodes log (first start) (twin twinStart))
    (rest : ∀ log value later, first start = .ok value later →
      Settles more log (next value later) (twinNext value ((log, later.1), later.2))) :
    Settles (nodes ++ more) log ((first >>= next) start) ((twin >>= twinNext) twinStart) := by
  rw [Build.bind_apply, Build.bind_apply]
  generalize first start = outcome at begun rest ⊢
  generalize twin twinStart = twinOutcome at begun ⊢
  cases begun with
  | @passed calls passed value later =>
      -- What the second step records comes behind what the first one has recorded.
      have ended := rest (log ++ calls) value later rfl
      simp only
      generalize next value later = outcome at ended ⊢
      generalize twinNext value ((log ++ calls, later.1), later.2) = twinOutcome at ended ⊢
      cases ended with
      | passed others result last =>
          rw [List.append_assoc]
          exact .passed (passed.append others) result last
      | stopped stopped last =>
          rw [List.append_assoc]
          exact .stopped (passed.stopped stopped) last
  | stopped stopped later => exact .stopped (stopped.append more) later

end Settles

def Serves (factory : Factory τ α) (leaf : α) (asked : τ × Builder) : Prop :=
  (∀ cause, factory leaf asked ≠ .fault cause) ∧
    ∀ value answered, factory leaf asked = .ok value answered → answered.2.Knows value

/-- The factory serves a conversion, whenever it is asked for a leaf. -/
def Answers (factory : Factory τ α) (host : Host α) (start : τ × Builder) : Prop :=
  ∀ leaf asked, Asks factory leaf asked host start → Serves factory leaf asked

def FieldsAnswer (factory : Factory τ α) (declared : Nat) (fields : List (Host α))
    (start : τ × Builder) : Prop :=
  ∀ leaf asked, AsksFields factory leaf asked declared fields start → Serves factory leaf asked

theorem Answers.fields {factory : Factory τ α} {declared : Nat} {fields : List (Host α)}
    {start : τ × Builder} (answers : Answers factory (.composite declared fields) start)
    (few : declared ≤ fieldLimit) : FieldsAnswer factory declared fields start :=
  fun leaf asked asks => answers leaf asked ⟨few, asks⟩

section Fields

variable {factory : Factory τ α} {declared : Nat} {field : Host α} {fields : List (Host α)}
  {start middle : τ × Builder}

theorem FieldsAnswer.first (answers : FieldsAnswer factory (declared + 1) (field :: fields) start) :
    Answers factory field start := fun leaf asked asks => answers leaf asked (.inl asks)

theorem FieldsAnswer.rest (answers : FieldsAnswer factory (declared + 1) (field :: fields) start)
    {value : ValueId} (converted : convert factory field start = .ok value middle) :
    FieldsAnswer factory declared fields middle :=
  fun leaf asked asks => answers leaf asked (.inr ⟨value, middle, converted, asks⟩)

end Fields

section Conversions

variable {given : Builder → TypeId → Prop} {factory : Factory τ α} {start later : τ × Builder}

theorem leaf_settles {leaf : α} (unfailing : ∀ cause, factory leaf start ≠ .fault cause)
    (log : List (Call α)) :
    Settles [.leaf leaf] log (factory leaf start)
      (recorded factory leaf ((log, start.1), start.2)) := by
  obtain ⟨tally, builder⟩ := start
  unfold recorded
  simp only
  cases outcome : factory leaf (tally, builder) with
  | ok value later =>
      have accepted : ∀ call ∈ [(⟨leaf, .ok value⟩ : Call α)], ∃ own, call.answer = .ok own := by
        rw [List.forall_mem_singleton]
        exact ⟨value, rfl⟩
      have passed : Passed [.leaf leaf] [⟨leaf, .ok value⟩] := ⟨rfl, accepted⟩
      exact .passed passed value later
  | error cause later => exact .stopped (.rejected passed_nil []) later
  | fault cause => exact absurd outcome (unfailing cause)

/-- What a conversion gives is known, since a structure is of a type that was interned for it. -/
theorem convert_knows {host : Host α} (tidy : start.2.Tidy)
    (acts : ActsByRuns given factory host start) (answers : Answers factory host start)
    {value : ValueId} (ok : convert factory host start = .ok value later) :
    later.2.Knows value := by
  cases host with
  | primitive leaf => exact (answers leaf start ⟨rfl, rfl⟩).2 value later ok
  | enumeration leaf => exact (answers leaf start ⟨rfl, rfl⟩).2 value later ok
  | null => cases ok
  | reference typeName => cases ok
  | array typeName => cases ok
  | composite declared fields =>
      unfold convert at ok
      split at ok
      · next few =>
          obtain ⟨values, middle, converted, rest⟩ := Build.bind_eq_ok ok
          have middleTidy := (convertFields_grows tidy (acts.fields few) converted).1
          exact (Builder.assembled middleTidy.placed middleTidy.wellFormed
            (Build.onSecond_eq_ok rest).1).knows
      · cases ok

theorem convertFields_knows {declared : Nat} {fields : List (Host α)} (tidy : start.2.Tidy)
    (acts : FieldsActByRuns given factory declared fields start)
    (answers : FieldsAnswer factory declared fields start) {values : List ValueId}
    (ok : convertFields factory declared fields start = .ok values later) :
    ∀ value ∈ values, later.2.Knows value := by
  induction declared generalizing fields start values with
  | zero =>
      unfold convertFields at ok
      cases ok
      exact List.forall_mem_nil _
  | succ declared ih =>
      cases fields with
      | nil =>
          unfold convertFields at ok
          cases ok
      | cons field fields =>
          unfold convertFields at ok
          obtain ⟨value, middle, converted, rest⟩ := Build.bind_eq_ok ok
          obtain ⟨others, last, remaining, same⟩ := Build.bind_eq_ok rest
          cases same
          have middleTidy := (convert_grows tidy acts.first converted).1
          have grown := (convertFields_grows middleTidy (acts.rest converted) remaining).2
          have first := convert_knows tidy acts.first answers.first converted
          have known := ih middleTidy (acts.rest converted) (answers.rest converted) remaining
          exact List.forall_mem_cons.mpr ⟨first.of_grown grown, known⟩

theorem assemble_settles (tidy : later.2.Tidy) {values : List ValueId}
    (known : ∀ value ∈ values, later.2.Knows value) (log : List (Call α)) :
    Settles [] log (Build.onSecond (assemble values) later)
      (Build.onSecond (assemble values) ((log, later.1), later.2)) := by
  obtain ⟨tally, builder⟩ := later
  obtain ⟨result, last, made⟩ := Builder.assemble_of_known tidy known
  rw [Build.onSecond_apply, Build.onSecond_apply, made]
  exact settles_nothing log result (tally, last)

mutual

theorem convert_settles (host : Host α) {start : τ × Builder} (log : List (Call α))
    (tidy : start.2.Tidy) (acts : ActsByRuns given factory host start)
    (answers : Answers factory host start) (small : host.Allocatable) :
    Settles host.walk log (convert factory host start)
      (convert (recorded factory) host ((log, start.1), start.2)) := by
  cases host with
  | primitive leaf => exact leaf_settles (answers leaf start ⟨rfl, rfl⟩).1 log
  | enumeration leaf => exact leaf_settles (answers leaf start ⟨rfl, rfl⟩).1 log
  | null => exact settles_refused rfl log [] start
  | reference typeName => exact settles_refused rfl log [] start
  | array typeName => exact settles_refused rfl log [] start
  | composite declared fields =>
      obtain ⟨few, smallFields⟩ := small
      have begun := convertFields_settles declared fields log tidy (acts.fields few)
        (answers.fields few) smallFields
      unfold convert
      -- No node is left for the assembly, which does not fail.
      rw [if_pos few, if_pos few, walk, ← List.append_nil (walkFields declared fields)]
      apply begun.bind
      intro log values middle converted
      have middleTidy := (convertFields_grows tidy (acts.fields few) converted).1
      have known := convertFields_knows tidy (acts.fields few) (answers.fields few) converted
      exact assemble_settles middleTidy known log

theorem convertFields_settles (declared : Nat) (fields : List (Host α)) {start : τ × Builder}
    (log : List (Call α)) (tidy : start.2.Tidy)
    (acts : FieldsActByRuns given factory declared fields start)
    (answers : FieldsAnswer factory declared fields start)
    (small : AllocatableFields declared fields) :
    Settles (walkFields declared fields) log (convertFields factory declared fields start)
      (convertFields (recorded factory) declared fields ((log, start.1), start.2)) := by
  cases declared with
  | zero =>
      unfold convertFields walkFields
      exact settles_nothing log [] start
  | succ declared =>
      cases fields with
      | nil =>
          unfold convertFields walkFields
          exact settles_refused rfl log (List.replicate declared .missing) start
      | cons field fields =>
          obtain ⟨smallFirst, smallRest⟩ := small
          have first := convert_settles field log tidy acts.first answers.first smallFirst
          unfold convertFields walkFields
          apply first.bind
          intro log value middle converted
          have middleTidy := (convert_grows tidy acts.first converted).1
          have rest := convertFields_settles declared fields log middleTidy (acts.rest converted)
            (answers.rest converted) smallRest
          rw [← List.append_nil (walkFields declared fields)]
          apply rest.bind
          intro log values last _
          exact settles_nothing log (value :: values) last

end

theorem embed_settles {host : Host α} {tally : τ} {builder : Builder} (tidy : builder.Tidy)
    (acts : ActsByRuns given factory host (tally, builder))
    (answers : Answers factory host (tally, builder)) (small : host.Allocatable) :
    Settles host.walk [] (embed factory host (tally, builder))
      (embed (recorded factory) host (([], tally), builder)) := by
  have settled := convert_settles host [] tidy acts answers small
  simp only at settled
  rw [embed_apply, embed_apply]
  generalize convert factory host (tally, builder) = outcome at settled ⊢
  generalize convert (recorded factory) host (([], tally), builder) = twin at settled ⊢
  cases settled with
  | passed passed value later => exact .passed passed value later
  | stopped stopped later => exact .stopped stopped (later.1, later.2.rollback builder.mark)

/-- A conversion, in a builder that a run from the empty one has reached, ends with a value or with
an error if its factory answers by runs and only with values that are known. It fails exactly if the
walk along the instance comes to a node that is refused or to a leaf that the factory rejects. If it
succeeds, all nodes are leaves, and the factory has been called for each one in turn and has
accepted it. If it fails, its error is that of the first node that was not passed, and the calls are
one for each leaf before it and, if it is a leaf itself, one for this. -/
theorem conversion_stops_at_first_bad_node {host : Host α} {tally : τ} {builder : Builder}
    (reached : Reaches given Builder.empty builder)
    (acts : ActsByRuns given factory host (tally, builder))
    (answers : Answers factory host (tally, builder)) (small : host.Allocatable) :
    ∃ calls,
      ((∃ cause later, embed factory host (tally, builder) = .error cause later) ↔
        (∃ node ∈ host.walk, ∃ cause, node.refusal? = some cause) ∨
          ∃ call ∈ calls, ∃ cause, call.answer = .error cause) ∧
      ((∃ value later, embed factory host (tally, builder) = .ok value later ∧
        embed (recorded factory) host (([], tally), builder) =
          .ok value ((calls, later.1), later.2) ∧ Passed host.walk calls) ∨
      ∃ cause later, embed factory host (tally, builder) = .error cause later ∧
        embed (recorded factory) host (([], tally), builder) =
          .error cause ((calls, later.1), later.2) ∧ Stopped host.walk calls cause) := by
  have settled := embed_settles reached.tidy acts answers small
  generalize embed factory host (tally, builder) = outcome at settled ⊢
  generalize embed (recorded factory) host (([], tally), builder) = twin at settled ⊢
  cases settled with
  | @passed calls passed value later =>
      refine ⟨calls, iff_of_false ?_ passed.not_bad, .inl ⟨value, later, rfl, rfl, passed⟩⟩
      rintro ⟨cause, last, ended⟩
      cases ended
  | @stopped calls cause stopped later =>
      exact ⟨calls, iff_of_true ⟨cause, later, rfl⟩ stopped.bad,
        .inr ⟨cause, later, rfl, rfl, stopped⟩⟩

end Conversions

/-- A flag, a record of another flag, and nothing. The factory rejects the second flag, so it is not
found out that there is nothing after it. -/
theorem rejected_flag_stops_conversion :
    let before : Builder := ⟨⟨[⟨.parameter 0, 4, 0⟩], [[0]], 1⟩, Pool.scalars, 0⟩
    let factory : Factory Unit Bool := fun leaf start =>
      if leaf then constants .int1 leaf start else .error (.rejected "not set") start
    let host : Host Bool := .composite 3 [.primitive true, .composite 1 [.enumeration false], .null]
    ∃ calls, embed factory host ((), before) = .error (.rejected "not set") ((), before) ∧
      embed (recorded factory) host (([], ()), before) =
        .error (.rejected "not set") ((calls, ()), before) ∧
      calls.map Call.leaf = [true, false] ∧
      Stopped host.walk calls (.rejected "not set") := by
  intro before factory host
  let parameter : Operation ValueId := .parameter 4
  let middle := before.appended (.constant (.int1 true)) 1
  have reached : Reaches (fun _ _ => True) Builder.empty before :=
    (Reaches.start Builder.empty).step parameter trivial rfl
  have acts : ActsByRuns (fun _ _ => True) factory host ((), before) := by
    intro leaf asked answered _ ended
    cases leaf with
    | false =>
        cases ended
        exact .start asked.2
    | true =>
        exact constants_act .int1 (.primitive true) asked true asked answered ⟨rfl, rfl⟩ ended
  have first : convert factory (.primitive true) ((), before) = .ok 1 ((), middle) := rfl
  have second : convert factory (.composite 1 [.enumeration false]) ((), middle) =
      .error (.rejected "not set") ((), middle) := rfl
  have answers : Answers factory host ((), before) := by
    intro leaf asked asks
    rcases asks with ⟨-, ⟨rfl, rfl⟩ | ⟨value, later, converted, rest⟩⟩
    · constructor
      · rintro cause ⟨⟩
      · rintro value answered ⟨⟩
        exact ⟨1, rfl, by decide⟩
    · rw [first] at converted
      cases converted
      rcases rest with ⟨-, ⟨rfl, rfl⟩ | ⟨value, later, none, -⟩⟩ | ⟨value, later, none, -⟩
      · constructor
        · rintro cause ⟨⟩
        · rintro value answered ⟨⟩
      · cases none
      · rw [second] at none
        cases none
  have small : host.Allocatable :=
    ⟨by decide, trivial, ⟨by decide, trivial, trivial⟩, trivial, trivial⟩
  have failed : embed factory host ((), before) = .error (.rejected "not set") ((), before) := rfl
  let calls : List (Call Bool) := [⟨true, .ok 1⟩, ⟨false, .error (.rejected "not set")⟩]
  have kept : embed (recorded factory) host (([], ()), before) =
      .error (.rejected "not set") ((calls, ()), before) := rfl
  obtain ⟨others, -, ⟨value, later, ok, -⟩ | ⟨cause, later, ended, recordedEnd, stopped⟩⟩ :=
    conversion_stops_at_first_bad_node reached acts answers small
  · rw [failed] at ok
    cases ok
  · rw [failed] at ended
    cases ended
    rw [kept] at recordedEnd
    cases recordedEnd
    exact ⟨calls, failed, kept, rfl, stopped⟩

end Host

end KernelIR
