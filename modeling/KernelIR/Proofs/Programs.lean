import KernelIR.Proofs.Runs

/-!
Programs for a builder. A step of a program is an operation that names values by the steps that gave
them, so one program can be played by builders that number their values differently. A step that
ends with an error gives no value, and a fault ends the play.
-/

set_option autoImplicit false

namespace KernelIR

/-- A builder in the middle of a program, with the value that each step so far has given. -/
structure Session where
  builder : Builder
  values : List (Option ValueId)

def Result.value? : Result → Option ValueId
  | .value id => some id
  | _ => none

namespace Operation

def named? (value? : Nat → Option ValueId) : Operation Nat → Option (Operation ValueId)
  | .recordType fields => some (.recordType fields)
  | .newBlock => some .newBlock
  | .positionAt block => some (.positionAt block)
  | .reopen => some .reopen
  | .null type => some (.null type)
  | .parameter type => some (.parameter type)
  | .constant value => some (.constant value)
  | .defaultRecord type => some (.defaultRecord type)
  | .recordOf operands => (operands.mapM value?).map .recordOf
  | .read object path => (value? object).map fun id => .read id path
  | .write object path value =>
      (value? object).bind fun id => (value? value).map fun part => .write id path part

/-- The types and blocks that an operation is given belong to the builder. -/
def KnownHandles {ν : Type} (builder : Builder) : Operation ν → Prop
  | .recordType fields => ∀ field ∈ fields, field < builder.pool.size
  | .positionAt block => block < builder.graph.blocks.length
  | .null type => type < builder.pool.size
  | .parameter type => type < builder.pool.size
  | _ => True

instance {ν : Type} (builder : Builder) (operation : Operation ν) :
    Decidable (operation.KnownHandles builder) :=
  match operation with
  | .recordType fields => inferInstanceAs (Decidable (∀ field ∈ fields, field < builder.pool.size))
  | .positionAt block => inferInstanceAs (Decidable (block < builder.graph.blocks.length))
  | .null type => inferInstanceAs (Decidable (type < builder.pool.size))
  | .parameter type => inferInstanceAs (Decidable (type < builder.pool.size))
  | .newBlock | .reopen | .constant _ | .defaultRecord _ | .recordOf _ | .read _ _ | .write _ _ _ =>
      .isTrue trivial

end Operation

namespace Session

def start : Session := ⟨Builder.empty, []⟩

def value? (session : Session) (step : Nat) : Option ValueId := session.values[step]?.join

def after? (session : Session) : Outcome Builder Result → Option Session
  | .ok result later => some ⟨later, session.values ++ [result.value?]⟩
  | .error _ later => some ⟨later, session.values ++ [none]⟩
  | .fault _ => none

end Session

/-- Every step names values that were given, and handles that the builder has when it is played. -/
def Admissible : List (Operation Nat) → Session → Prop
  | [], _ => True
  | step :: program, session =>
      ∃ operation, step.named? session.value? = some operation ∧
        operation.KnownHandles session.builder ∧
        ∀ later, session.after? (operation.run session.builder) = some later →
          Admissible program later

theorem admissible_cons_iff {step : Operation Nat} {program : List (Operation Nat)}
    {session : Session} {operation : Operation ValueId}
    (named : step.named? session.value? = some operation) :
    Admissible (step :: program) session ↔ operation.KnownHandles session.builder ∧
      ∀ later ∈ session.after? (operation.run session.builder), Admissible program later := by
  constructor
  · rintro ⟨other, otherNamed, known, rest⟩
    rw [named] at otherNamed
    cases otherNamed
    exact ⟨known, rest⟩
  · rintro ⟨known, rest⟩
    exact ⟨operation, named, known, rest⟩

instance decidableAdmissible : (program : List (Operation Nat)) → (session : Session) →
    Decidable (Admissible program session)
  | [], _ => .isTrue trivial
  | step :: program, session =>
      match named : step.named? session.value? with
      | none => .isFalse fun admissible => by
          obtain ⟨operation, found, -⟩ := admissible
          rw [named] at found
          cases found
      | some operation =>
          have : Decidable (∀ later ∈ session.after? (operation.run session.builder),
              Admissible program later) :=
            match session.after? (operation.run session.builder) with
            | none => .isTrue fun later member => by cases member
            | some next =>
                match decidableAdmissible program next with
                | .isTrue holds => .isTrue fun later member => by
                    cases member
                    exact holds
                | .isFalse fails => .isFalse fun all => fails (all next rfl)
          decidable_of_iff _ (admissible_cons_iff named).symm

/-- The plain way to read a field: whatever the writes before it, the read is appended. -/
def Builder.load (object : ValueId) (path : Path) : Build Builder ValueId := do
  let type ← Build.ask fun builder => builder.graph.fieldType builder.pool object path
  append (.read object path) type

end KernelIR
