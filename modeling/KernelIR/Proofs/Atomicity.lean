import KernelIR.Proofs.Arena
import KernelIR.Proofs.Records

/-!
Calls that fail leave the builder as it was. The calls that only look before they append have
nothing to undo, and a structure that is made of values fails only where there are none. A
conversion may have added values, types and blocks before it fails, and so may conversions inside of
it; all of that is forgotten.
-/

set_option autoImplicit false

namespace KernelIR

namespace Build

variable {σ α β : Type}

def Atomic (step : Build σ α) (state : σ) : Prop :=
  ∀ cause later, step state = .error cause later → later = state

theorem Atomic.ask_first {question : σ → Except Failure β} {next : β → Build σ α} {state : σ}
    (sure : ∀ value, question state = .ok value →
      ∀ cause later, next value state ≠ .error cause later) :
    Atomic (Build.ask question >>= next) state := by
  intro cause later failed
  rw [bind_apply] at failed
  unfold Build.ask at failed
  cases answer : question state with
  | ok value =>
      simp only [answer] at failed
      exact absurd failed (sure value answer cause later)
  | error failure =>
      cases failure with
      | error other =>
          simp only [answer] at failed
          cases failed
          rfl
      | fault other =>
          simp only [answer] at failed
          cases failed

end Build

namespace Builder

variable {builder : Builder}

theorem append_ne_error (kind : ValueKind) (type : TypeId) (cause : BuildError) (later : Builder) :
    append kind type builder ≠ .error cause later := by
  intro failed
  unfold append at failed
  split at failed
  · cases failed
  · cases failed

theorem defaultRecord_atomic (type : TypeId) : (defaultRecord type).Atomic builder :=
  .ask_first fun _ _ => append_ne_error .null type

theorem write_atomic (object : ValueId) (path : Path) (value : ValueId) :
    (write object path value).Atomic builder :=
  .ask_first fun type _ => append_ne_error (.write object path value) type

theorem read_atomic (object : ValueId) (path : Path) : (read object path).Atomic builder := by
  apply Build.Atomic.ask_first
  intro answer _ cause later
  cases answer with
  | stored value => exact fun failed => by cases failed
  | initial type => exact append_ne_error .null type cause later
  | load object path type => exact append_ne_error (.read object path) type cause later

theorem recordOf_atomic (tidy : builder.Tidy) (operands : List ValueId) :
    (recordOf operands).Atomic builder := by
  intro cause later failed
  cases operands with
  | nil =>
      cases failed
      rfl
  | cons operand operands =>
      rcases recordOf_cases tidy.placed tidy.wellFormed (List.cons_ne_nil operand operands) with
        ⟨result, state, ok⟩ | ⟨fault, stopped⟩
      · rw [ok] at failed
        cases failed
      · rw [stopped] at failed
        cases failed

/-- Whatever its factory has done by runs, a failing conversion gives back the builder. -/
theorem embed_atomic {τ α : Type} {given : Builder → TypeId → Prop} (tidy : builder.Tidy)
    {factory : Host.Factory τ α} {host : Host α} {tally : τ}
    (acts : Host.ActsByRuns given factory host (tally, builder)) {cause : BuildError}
    {later : τ × Builder} (failed : Host.embed factory host (tally, builder) = .error cause later) :
    later.2 = builder := by
  obtain ⟨reached, kept, same⟩ := (tidy_kept given).failed acts failed
  obtain ⟨reachedTidy, grown⟩ := kept tidy
  rw [same]
  exact tidy.undone reachedTidy grown

/-- In every builder that a run from the empty one reaches, a call that fails changes nothing. -/
theorem failed_calls_change_nothing {given : Builder → TypeId → Prop} {builder : Builder}
    (reached : Reaches given empty builder) :
    (∀ type, (defaultRecord type).Atomic builder) ∧
      (∀ operands, (recordOf operands).Atomic builder) ∧
      (∀ object path, (read object path).Atomic builder) ∧
      (∀ object path value, (write object path value).Atomic builder) ∧
      ∀ {τ α : Type} (factory : Host.Factory τ α) (host : Host α) (tally : τ),
        Host.ActsByRuns given factory host (tally, builder) → ∀ cause later,
          Host.embed factory host (tally, builder) = .error cause later → later.2 = builder :=
  ⟨defaultRecord_atomic, recordOf_atomic reached.tidy, read_atomic, write_atomic,
    fun _ _ _ acts _ _ failed => embed_atomic reached.tidy acts failed⟩

/-- A conversion whose second leaf starts one of its own, which makes a value before it fails. -/
theorem nested_failure_changes_nothing :
    let builder : Builder := ⟨⟨[⟨.parameter 0, ScalarType.i32.id, 0⟩], [[0]], 1⟩, Pool.scalars, 0⟩
    let instances : Bool → Host Bool := fun leaf =>
      .composite 2 [.primitive leaf, if leaf then .primitive leaf else .null]
    let factory : Host.Factory Unit Bool := Host.nested (Host.constants .int1) instances
    ∃ later, Host.embed factory (.composite 2 [.primitive true, .enumeration false]) ((), builder) =
      .error .nullInstance later ∧ later.2 = builder := by
  intro builder instances factory
  let parameter : Operation ValueId := .parameter ScalarType.i32.id
  have promised : parameter.Promised (fun _ _ => True) empty := trivial
  have reached : Reaches (fun _ _ => True) empty builder := .operation (.start empty) promised rfl
  have acts : Host.ActsByRuns (fun _ _ => True) factory
      (.composite 2 [.primitive true, .enumeration false]) ((), builder) :=
    Host.nested_acts _ _ fun leaf asked => Host.constants_act _ _ asked
  have failed : Host.embed factory (.composite 2 [.primitive true, .enumeration false])
      ((), builder) = .error .nullInstance ((), builder) := rfl
  exact ⟨_, failed, (failed_calls_change_nothing reached).2.2.2.2 factory _ () acts _ _ failed⟩

end Builder

end KernelIR
