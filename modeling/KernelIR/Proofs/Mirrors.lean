import KernelIR.Proofs.Assembly
import Mathlib

/-!
Conversions mirror instances. A conversion comes to each part of an instance once, in the order of
the fields, and each composite becomes a structure of what its fields became. Main statement: the
value that a conversion of a composite gives has a type made of the types of the parts, and every
part is read back from it as the value that it was made into, without a change to the graph; and
apart from what the factory has added there are, for each composite, its default and one version for
each field.
-/

set_option autoImplicit false

namespace KernelIR

namespace Host

variable {τ α : Type}

mutual

/-- All parts of an instance with their paths. A composite has the fields that it declares. -/
def parts : Host α → List (Path × Host α)
  | .composite declared fields => ([], .composite declared fields) :: partsFrom 0 declared fields
  | host => [([], host)]

def partsFrom : Nat → Nat → List (Host α) → List (Path × Host α)
  | _, 0, _ => []
  | _, _ + 1, [] => []
  | index, declared + 1, field :: fields =>
      (parts field).map (fun entry => (index :: entry.1, entry.2)) ++
        partsFrom (index + 1) declared fields

end

def partAt? : Host α → Path → Option (Host α)
  | host, [] => some host
  | .composite declared fields, index :: path =>
      if index < declared then do
        let field ← fields[index]?
        partAt? field path
      else none
  | _, _ :: _ => none

mutual

theorem mem_parts_iff (host : Host α) (path : Path) (part : Host α) :
    (path, part) ∈ host.parts ↔ host.partAt? path = some part := by
  cases host with
  | composite declared fields =>
      rw [parts, List.mem_cons, mem_partsFrom_iff]
      cases path with
      | nil => simp [partAt?, eq_comm]
      | cons index path =>
          simp only [partAt?, Prod.mk.injEq, reduceCtorEq, false_and, false_or]
          constructor
          · rintro ⟨offset, rest, field, place, inside, listed, found⟩
            rw [Nat.zero_add] at place
            cases place
            rw [if_pos inside, listed]
            exact found
          · intro found
            split at found
            · next inside =>
                obtain ⟨field, listed, rest⟩ := Option.bind_eq_some_iff.mp found
                exact ⟨index, path, field, by rw [Nat.zero_add], inside, listed, rest⟩
            · cases found
  | _ =>
      cases path with
      | nil => simp [parts, partAt?, eq_comm]
      | cons index path => simp [parts, partAt?]

theorem mem_partsFrom_iff (index declared : Nat) (fields : List (Host α)) (path : Path)
    (part : Host α) :
    (path, part) ∈ partsFrom index declared fields ↔
      ∃ offset rest field, path = (index + offset) :: rest ∧ offset < declared ∧
        fields[offset]? = some field ∧ field.partAt? rest = some part := by
  cases declared with
  | zero => simp [partsFrom]
  | succ declared =>
      cases fields with
      | nil => simp [partsFrom]
      | cons field fields =>
          rw [partsFrom, List.mem_append, mem_partsFrom_iff]
          constructor
          · rintro (inFirst | ⟨offset, rest, own, rfl, inside, listed, found⟩)
            · obtain ⟨⟨rest, own⟩, member, same⟩ := List.mem_map.mp inFirst
              cases same
              exact ⟨0, rest, field, rfl, Nat.succ_pos _, rfl,
                (mem_parts_iff field rest _).mp member⟩
            · exact ⟨offset + 1, rest, own, by rw [Nat.succ_add_eq_add_succ],
                Nat.succ_lt_succ inside, listed, found⟩
          · rintro ⟨offset, rest, own, rfl, inside, listed, found⟩
            cases offset with
            | zero =>
                cases listed
                exact .inl (List.mem_map.mpr
                  ⟨(rest, part), (mem_parts_iff field rest part).mpr found, rfl⟩)
            | succ offset =>
                exact .inr ⟨offset, rest, own, by rw [Nat.succ_add_eq_add_succ],
                  Nat.lt_of_succ_lt_succ inside, listed, found⟩

end

mutual

theorem parts_nodup (host : Host α) : (host.parts.map Prod.fst).Nodup := by
  cases host with
  | composite declared fields =>
      rw [parts, List.map_cons, List.nodup_cons]
      refine ⟨?_, partsFrom_nodup 0 declared fields⟩
      intro member
      obtain ⟨⟨path, part⟩, listed, empty⟩ := List.mem_map.mp member
      obtain ⟨offset, rest, field, place, -⟩ := (mem_partsFrom_iff _ _ _ path part).mp listed
      rw [place] at empty
      cases empty
  | _ => exact List.pairwise_singleton _ _

theorem partsFrom_nodup (index declared : Nat) (fields : List (Host α)) :
    ((partsFrom index declared fields).map Prod.fst).Nodup := by
  cases declared with
  | zero =>
      rw [partsFrom]
      exact List.nodup_nil
  | succ declared =>
      cases fields with
      | nil => exact List.nodup_nil
      | cons field fields =>
          rw [partsFrom, List.map_append, List.nodup_append]
          refine ⟨?_, partsFrom_nodup (index + 1) declared fields, ?_⟩
          · have longer : Function.Injective (List.cons index) := List.cons_injective
            have apart := List.Nodup.map longer (parts_nodup field)
            rw [List.map_map] at apart ⊢
            exact apart
          · -- The steps into later fields are larger.
            rintro path inFirst _ inRest rfl
            rw [List.map_map] at inFirst
            obtain ⟨entry, -, rfl⟩ := List.mem_map.mp inFirst
            obtain ⟨⟨later, part⟩, listed, same⟩ := List.mem_map.mp inRest
            obtain ⟨offset, rest, own, rfl, -⟩ := (mem_partsFrom_iff _ _ _ later part).mp listed
            simp only [Function.comp_apply, List.cons.injEq] at same
            omega

end

structure Visit (τ α : Type) where
  path : Path
  part : Host α
  begun : τ × Builder

namespace Visit

def entry (visit : Visit τ α) : Path × Host α := (visit.path, visit.part)

def inField (index : Nat) (visit : Visit τ α) : Visit τ α :=
  { visit with path := index :: visit.path }

/-- How many values a part adds by itself: what the factory has left for a leaf; for a composite
the default and one version for each field. -/
def added (factory : Factory τ α) (visit : Visit τ α) : Nat :=
  match visit.part with
  | .composite declared _ => 1 + declared
  | leaf =>
      match convert factory leaf visit.begun with
      | .ok _ ended => ended.2.graph.size - visit.begun.2.graph.size
      | _ => 0

end Visit

mutual

def visits (factory : Factory τ α) : Host α → τ × Builder → List (Visit τ α)
  | .composite declared fields, start =>
      ⟨[], .composite declared fields, start⟩ :: visitsFrom factory 0 declared fields start
  | host, start => [⟨[], host, start⟩]

def visitsFrom (factory : Factory τ α) : Nat → Nat → List (Host α) → τ × Builder →
    List (Visit τ α)
  | _, 0, _, _ => []
  | _, _ + 1, [], _ => []
  | index, declared + 1, field :: fields, start =>
      (visits factory field start).map (Visit.inField index) ++
        match convert factory field start with
        | .ok _ later => visitsFrom factory (index + 1) declared fields later
        | _ => []

end

/-- The part was converted, which only added values, and the object has its value at the path. A
composite part has become a structure of as many fields as it declares. -/
def Visit.FoundIn (factory : Factory τ α) (builder : Builder) (object : ValueId) (path : Path)
    (visit : Visit τ α) : Prop :=
  ∃ own ended, convert factory visit.part visit.begun = .ok own ended ∧
    visit.begun.2.graph.size ≤ ended.2.graph.size ∧
    builder.graph.PartAt builder.pool object path own ∧
    ∀ {declared : Nat} {fields : List (Host α)}, visit.part = .composite declared fields →
      ∃ type types, builder.graph.type? own = some type ∧
        builder.pool.types[type]? = some (.record types) ∧ types.length = declared

theorem Visit.FoundIn.of_grown {factory : Factory τ α} {before after : Builder} {object : ValueId}
    {path : Path} {visit : Visit τ α} (found : visit.FoundIn factory before object path)
    (grown : Builder.Grown before after) : visit.FoundIn factory after object path := by
  obtain ⟨own, ended, converted, more, present, record⟩ := found
  refine ⟨own, ended, converted, more, present.of_grown grown.values grown.types, ?_⟩
  intro declared fields composite
  obtain ⟨type, types, typed, stored, count⟩ := record composite
  exact ⟨type, types, Graph.type?_of_grown grown.values typed, stored_of_grown grown.types stored,
    count⟩

structure Mirrors (factory : Factory τ α) (host : Host α) (start : τ × Builder) (result : ValueId)
    (after : Builder) : Prop where
  listed : (host.visits factory start).map Visit.entry = host.parts
  found : ∀ visit ∈ host.visits factory start, visit.FoundIn factory after result visit.path
  size : after.graph.size =
    start.2.graph.size + ((host.visits factory start).map (Visit.added factory)).sum

structure MirrorsFields (factory : Factory τ α) (index declared : Nat) (fields : List (Host α))
    (start : τ × Builder) (values : List ValueId) (after : Builder) : Prop where
  count : values.length = declared
  listed : (visitsFrom factory index declared fields start).map Visit.entry =
    partsFrom index declared fields
  found : ∀ visit ∈ visitsFrom factory index declared fields start, ∃ offset value path,
    visit.path = (index + offset) :: path ∧ values[offset]? = some value ∧
      visit.FoundIn factory after value path
  size : after.graph.size = start.2.graph.size +
    ((visitsFrom factory index declared fields start).map (Visit.added factory)).sum

section Steps

variable {factory : Factory τ α} {start middle : τ × Builder} {after : Builder}

theorem mirrors_leaf {host : Host α} {result : ValueId} {later : τ × Builder}
    (leaf : (∃ own, host = .primitive own) ∨ ∃ own, host = .enumeration own)
    (converted : convert factory host start = .ok result later)
    (grown : Builder.Grown start.2 later.2) : Mirrors factory host start result later.2 := by
  have visited : host.visits factory start = [⟨[], host, start⟩] := by
    rcases leaf with ⟨own, rfl⟩ | ⟨own, rfl⟩ <;> rfl
  have only : host.parts = [([], host)] := by
    rcases leaf with ⟨own, rfl⟩ | ⟨own, rfl⟩ <;> rfl
  have noComposite : ∀ declared fields, host ≠ .composite declared fields := by
    rintro declared fields rfl
    rcases leaf with ⟨own, same⟩ | ⟨own, same⟩ <;> cases same
  have added : Visit.added factory ⟨[], host, start⟩ =
      later.2.graph.size - start.2.graph.size := by
    rcases leaf with ⟨own, rfl⟩ | ⟨own, rfl⟩
    · simp only [Visit.added, converted]
    · simp only [Visit.added, converted]
  have more : start.2.graph.size ≤ later.2.graph.size := grown.values.length_le
  constructor
  · rw [visited, only]
    rfl
  · intro visit member
    rw [visited] at member
    cases List.mem_singleton.mp member
    exact ⟨result, later, converted, more, .itself result,
      fun composite => absurd composite (noComposite _ _)⟩
  · rw [visited, List.map_singleton, List.sum_singleton, added]
    omega

theorem mirrorsFields_none (index : Nat) (fields : List (Host α)) (start : τ × Builder) :
    MirrorsFields factory index 0 fields start [] start.2 where
  count := rfl
  listed := by
    unfold visitsFrom partsFrom
    rfl
  found := by
    intro visit member
    unfold visitsFrom at member
    cases member
  size := by
    unfold visitsFrom
    rfl

theorem visitsFrom_cons {field : Host α} {value : ValueId}
    (converted : convert factory field start = .ok value middle) (index declared : Nat)
    (fields : List (Host α)) :
    visitsFrom factory index (declared + 1) (field :: fields) start =
      (visits factory field start).map (Visit.inField index) ++
        visitsFrom factory (index + 1) declared fields middle := by
  rw [visitsFrom, converted]

theorem MirrorsFields.cons {field : Host α} {value : ValueId} {index declared : Nat}
    {fields : List (Host α)} {values : List ValueId}
    (converted : convert factory field start = .ok value middle)
    (first : Mirrors factory field start value middle.2)
    (grown : Builder.Grown middle.2 after)
    (rest : MirrorsFields factory (index + 1) declared fields middle values after) :
    MirrorsFields factory index (declared + 1) (field :: fields) start (value :: values) after where
  count := congrArg Nat.succ rest.count
  listed := by
    rw [visitsFrom_cons converted, partsFrom, List.map_append, rest.listed, ← first.listed,
      List.map_map, List.map_map]
    rfl
  found := by
    intro visit member
    rw [visitsFrom_cons converted] at member
    rcases List.mem_append.mp member with inFirst | inRest
    · obtain ⟨inner, visited, rfl⟩ := List.mem_map.mp inFirst
      exact ⟨0, value, inner.path, rfl, rfl, (first.found inner visited).of_grown grown⟩
    · obtain ⟨offset, later, path, place, listed, found⟩ := rest.found visit inRest
      rw [Nat.succ_add_eq_add_succ] at place
      exact ⟨offset + 1, later, path, place, listed, found⟩
  size := by
    have before := first.size
    have afterwards := rest.size
    have same : (Visit.added factory) ∘ Visit.inField index = Visit.added (α := α) factory := rfl
    rw [visitsFrom_cons converted, List.map_append, List.map_map, List.sum_append, same]
    omega

theorem MirrorsFields.composite {declared : Nat} {fields : List (Host α)} {values : List ValueId}
    {result : ValueId} {later : τ × Builder}
    (converted : convert factory (.composite declared fields) start = .ok result later)
    (mirrored : MirrorsFields factory 0 declared fields start values middle.2)
    (assembled : Builder.Assembled middle.2 values result later.2) :
    Mirrors factory (.composite declared fields) start result later.2 := by
  obtain ⟨type, types, typed, stored, fieldTypes⟩ := assembled.record
  have visited : (Host.composite declared fields).visits factory start =
      ⟨[], .composite declared fields, start⟩ :: visitsFrom factory 0 declared fields start := rfl
  have before := mirrored.size
  have made := assembled.size
  rw [mirrored.count] at made
  constructor
  · rw [visited, List.map_cons, mirrored.listed]
    rfl
  · intro visit member
    rw [visited] at member
    rcases List.mem_cons.mp member with rfl | inFields
    · have more : start.2.graph.size ≤ later.2.graph.size := by omega
      refine ⟨result, later, converted, more, .itself result, ?_⟩
      rintro _ _ ⟨⟩
      have lengths := congrArg List.length fieldTypes
      rw [List.length_map, List.length_map, mirrored.count] at lengths
      exact ⟨type, types, typed, stored, lengths.symm⟩
    · obtain ⟨offset, value, path, place, listed, found⟩ := mirrored.found visit inFields
      obtain ⟨own, ended, made, more, present, record⟩ := found.of_grown assembled.grown
      obtain ⟨field, fieldListed, valueTyped⟩ := Builder.typed_of_types fieldTypes listed
      rw [Nat.zero_add] at place
      rw [place]
      exact ⟨own, ended, made, more, .field typed stored fieldListed valueTyped
        (assembled.fields listed) present, record⟩
  · have own : Visit.added factory ⟨[], .composite declared fields, start⟩ = 1 + declared := rfl
    rw [visited, List.map_cons, List.sum_cons, own]
    omega

end Steps

section Conversions

variable {given : Builder → TypeId → Prop} {factory : Factory τ α}

theorem convert_grows {host : Host α} {start later : τ × Builder} {result : ValueId}
    (tidy : start.2.Tidy) (acts : ActsByRuns given factory host start)
    (ok : convert factory host start = .ok result later) :
    later.2.Tidy ∧ Builder.Grown start.2 later.2 := by
  have ended : (convert factory host start).state? = some later := by
    rw [ok]
    rfl
  exact (Builder.tidy_kept given).convert host
    (fun leaf asked answered asks found =>
      (acts leaf asked answered asks found).keeps (Builder.tidy_kept given)) ended tidy

def FieldsActByRuns (given : Builder → TypeId → Prop) (factory : Factory τ α) (declared : Nat)
    (fields : List (Host α)) (start : τ × Builder) : Prop :=
  ∀ leaf asked answered, AsksFields factory leaf asked declared fields start →
    (factory leaf asked).state? = some answered → Reaches given asked.2 answered.2

theorem ActsByRuns.fields {declared : Nat} {fields : List (Host α)} {start : τ × Builder}
    (acts : ActsByRuns given factory (.composite declared fields) start)
    (few : declared ≤ fieldLimit) : FieldsActByRuns given factory declared fields start :=
  fun leaf asked answered asks => acts leaf asked answered ⟨few, asks⟩

section Fields

variable {declared : Nat} {field : Host α} {fields : List (Host α)} {start middle : τ × Builder}

theorem FieldsActByRuns.first
    (acts : FieldsActByRuns given factory (declared + 1) (field :: fields) start) :
    ActsByRuns given factory field start :=
  fun leaf asked answered asks => acts leaf asked answered (.inl asks)

/-- The rest of the fields is asked for only in the state after the first one. -/
theorem FieldsActByRuns.rest
    (acts : FieldsActByRuns given factory (declared + 1) (field :: fields) start) {value : ValueId}
    (converted : convert factory field start = .ok value middle) :
    FieldsActByRuns given factory declared fields middle :=
  fun leaf asked answered asks => acts leaf asked answered (.inr ⟨value, middle, converted, asks⟩)

end Fields

theorem convertFields_grows {declared : Nat} {fields : List (Host α)} {start later : τ × Builder}
    {values : List ValueId} (tidy : start.2.Tidy)
    (acts : FieldsActByRuns given factory declared fields start)
    (ok : convertFields factory declared fields start = .ok values later) :
    later.2.Tidy ∧ Builder.Grown start.2 later.2 := by
  have ended : (convertFields factory declared fields start).state? = some later := by
    rw [ok]
    rfl
  exact (Builder.tidy_kept given).convertFields declared fields
    (fun leaf asked answered asks found =>
      (acts leaf asked answered asks found).keeps (Builder.tidy_kept given)) ended tidy

mutual

theorem convert_mirrors (host : Host α) {start later : τ × Builder} {result : ValueId}
    (tidy : start.2.Tidy) (acts : ActsByRuns given factory host start)
    (ok : convert factory host start = .ok result later) :
    Mirrors factory host start result later.2 := by
  have grown := (convert_grows tidy acts ok).2
  cases host with
  | primitive leaf => exact mirrors_leaf (.inl ⟨leaf, rfl⟩) ok grown
  | enumeration leaf => exact mirrors_leaf (.inr ⟨leaf, rfl⟩) ok grown
  | null => cases ok
  | reference typeName => cases ok
  | array typeName => cases ok
  | composite declared fields =>
      have converted := ok
      unfold convert at ok
      split at ok
      · next small =>
          obtain ⟨values, middle, fieldsConverted, rest⟩ := Build.bind_eq_ok ok
          have acted := acts.fields small
          have middleTidy := (convertFields_grows tidy acted fieldsConverted).1
          have mirrored := convertFields_mirrors declared fields 0 tidy acted fieldsConverted
          exact mirrored.composite converted
            (Builder.assembled middleTidy.placed middleTidy.wellFormed
              (Build.onSecond_eq_ok rest).1)
      · cases ok

theorem convertFields_mirrors (declared : Nat) (fields : List (Host α)) (index : Nat)
    {start later : τ × Builder} {values : List ValueId} (tidy : start.2.Tidy)
    (acts : FieldsActByRuns given factory declared fields start)
    (ok : convertFields factory declared fields start = .ok values later) :
    MirrorsFields factory index declared fields start values later.2 := by
  cases declared with
  | zero =>
      unfold convertFields at ok
      cases ok
      exact mirrorsFields_none index fields start
  | succ declared =>
      cases fields with
      | nil =>
          unfold convertFields at ok
          cases ok
      | cons field fields =>
          unfold convertFields at ok
          obtain ⟨value, middle, converted, rest⟩ := Build.bind_eq_ok ok
          obtain ⟨others, last, remaining, same⟩ := Build.bind_eq_ok rest
          cases same
          have rest := acts.rest converted
          have middleTidy := (convert_grows tidy acts.first converted).1
          exact .cons converted (convert_mirrors field tidy acts.first converted)
            (convertFields_grows middleTidy rest remaining).2
            (convertFields_mirrors declared fields (index + 1) middleTidy rest remaining)

end

/-- Whatever its factory does by runs, a conversion of a composite comes to each part once. The
value that it gives has a type in which each path leads to the type of the part's own value, which
for a composite is a structure of as many fields as it declares; a read of a path gives the part's
own value, which for a leaf is the one from the factory, and changes nothing; and the values that
were added are those that the factory has left and, for each composite, one more than its fields. -/
theorem conversion_mirrors_instance {declared : Nat} {fields : List (Host α)} {tally : τ}
    {builder : Builder} {result : ValueId} {later : τ × Builder}
    (reached : Reaches given Builder.empty builder)
    (acts : ActsByRuns given factory (.composite declared fields) (tally, builder))
    (ok : embed factory (.composite declared fields) (tally, builder) = .ok result later) :
    let host : Host α := .composite declared fields
    let visits := host.visits factory (tally, builder)
    (visits.map Visit.entry = host.parts ∧ (visits.map Visit.path).Nodup) ∧
      (∃ whole, later.2.graph.type? result = some whole ∧
        ∀ path part, host.partAt? path = some part → ∃ begun own ended type,
          ⟨path, part, begun⟩ ∈ visits ∧ convert factory part begun = .ok own ended ∧
            begun.2.graph.size ≤ ended.2.graph.size ∧
            later.2.graph.type? own = some type ∧ later.2.pool.fieldAt? whole path = some type ∧
            (path ≠ [] → Builder.read result path later.2 = .ok own later.2) ∧
            ∀ declared fields, part = .composite declared fields →
              ∃ types, later.2.pool.types[type]? = some (.record types) ∧
                types.length = declared) ∧
      later.2.graph.size = builder.graph.size + (visits.map (Visit.added factory)).sum := by
  intro host visits
  have converted := embed_eq_ok ok
  have mirrored : Mirrors factory host (tally, builder) result later.2 :=
    convert_mirrors host reached.tidy acts converted
  have ended : (embed factory host (tally, builder)).state? = some (later.1, later.2) := by
    rw [ok]
    rfl
  have after : Reaches given Builder.empty later.2 := .conversion reached acts ended
  have paths : (visits.map Visit.path).Nodup := by
    have same : visits.map Visit.path = host.parts.map Prod.fst := by
      rw [← mirrored.listed, List.map_map]
      rfl
    rw [same]
    exact host.parts_nodup
  have top : ⟨[], host, (tally, builder)⟩ ∈ visits := List.mem_cons_self
  obtain ⟨own, _, made, -, present, record⟩ := mirrored.found _ top
  obtain ⟨whole, types, typed, -⟩ := record rfl
  cases present
  refine ⟨⟨mirrored.listed, paths⟩, ⟨whole, typed, ?_⟩, mirrored.size⟩
  intro path part reachable
  have listed := (mem_parts_iff host path part).mpr reachable
  rw [← mirrored.listed] at listed
  obtain ⟨⟨_, _, begun⟩, visited, same⟩ := List.mem_map.mp listed
  cases same
  obtain ⟨own, ended, made, more, present, record⟩ := mirrored.found _ visited
  obtain ⟨type, ownTyped, atPath⟩ := present.typed typed
  refine ⟨begun, own, ended, type, visited, made, more, ownTyped, atPath,
    Builder.read_of_partAt after.tidy.placed after.coherent.backward present typed, ?_⟩
  intro declared fields composite
  obtain ⟨other, types, otherTyped, stored, count⟩ := record composite
  rw [ownTyped] at otherTyped
  cases otherTyped
  exact ⟨types, stored, count⟩

end Conversions

/-- A triple of a flag, a pair of an empty record and a flag, and the first flag again. Each flag is
first tried as a pair, which fails when a value has been added for its first half. -/
theorem flag_in_nested_pair_is_read_back :
    let before : Builder := ⟨⟨[⟨.parameter 0, 4, 0⟩], [[0]], 1⟩, Pool.scalars, 0⟩
    let halves : Bool → Host Bool := fun leaf => .composite 2 [.primitive leaf, .null]
    let factory : Factory Unit Bool := orElse (nested (constants .int1) halves) (constants .int1)
    let pair : Host Bool := .composite 2 [.composite 0 [], .enumeration false]
    let host : Host Bool := .composite 3 [.primitive true, pair, .primitive true]
    ∃ after, embed factory host ((), before) = .ok 11 ((), after) ∧ after.graph.size = 12 ∧
      ∃ begun own ended, factory false begun = .ok own ended ∧
        Builder.read 11 [1, 1] after = .ok own after := by
  intro before halves factory pair host
  let parameter : Operation ValueId := .parameter 4
  have start : Reaches (fun _ _ => True) Builder.empty Builder.empty := .start _
  have reached : Reaches (fun _ _ => True) Builder.empty before := start.step parameter trivial rfl
  let after : Builder :=
    ⟨⟨[⟨.parameter 0, 4, 0⟩, ⟨.constant (.int1 true), 1, 0⟩, ⟨.null, 9, 0⟩,
      ⟨.constant (.int1 false), 1, 0⟩, ⟨.null, 10, 0⟩, ⟨.write 4 [0] 2, 10, 0⟩,
      ⟨.write 5 [1] 3, 10, 0⟩, ⟨.constant (.int1 true), 1, 0⟩, ⟨.null, 11, 0⟩,
      ⟨.write 8 [0] 1, 11, 0⟩, ⟨.write 9 [1] 6, 11, 0⟩, ⟨.write 10 [2] 7, 11, 0⟩],
      [List.range 12], 1⟩, (((Pool.scalars.intern []).2.intern [9, 1]).2.intern [1, 10, 1]).2, 0⟩
  have ok : embed factory host ((), before) = .ok 11 ((), after) := by
    unfold before factory halves host pair after
    cbv
  have acts : ActsByRuns (fun _ _ => True) factory host ((), before) :=
    orElse_acts host _
      (fun leaf asked => nested_acts _ asked fun _ inner => constants_act _ _ inner)
      (fun leaf asked => constants_act _ _ asked)
  obtain ⟨-, ⟨whole, -, parts⟩, -⟩ := conversion_mirrors_instance reached acts ok
  obtain ⟨begun, own, ended, type, -, made, -, -, -, read, -⟩ :=
    parts [1, 1] (.enumeration false) rfl
  exact ⟨after, ok, rfl, begun, own, ended, made, read (List.cons_ne_nil 1 [1])⟩

end Host

end KernelIR
