import KernelIR.Scalar

/-!
Pools of types. Every type is stored once and named by its position. Structure types are interned
by their list of field types, so two structures with the same fields have the same handle, and
comparing types is comparing handles.
-/

set_option autoImplicit false

namespace KernelIR

inductive TypeData where
  | scalar (type : ScalarType)
  | record (fields : List TypeId)
deriving DecidableEq, Repr

structure Pool where
  types : List TypeData
  /-- The handles given out for lists of field types. -/
  interned : List (List TypeId × TypeId)
deriving DecidableEq, Repr

namespace Pool

def size (pool : Pool) : Nat := pool.types.length

def scalars : Pool := ⟨ScalarType.all.map .scalar, []⟩

def contains (pool : Pool) (id : TypeId) : Bool := id < pool.size

def unknownText (id : TypeId) : String := "<unknown type " ++ toString id ++ ">"

/-- The field types of a structure; for any other handle the text of what is there instead. -/
def fieldsOf (pool : Pool) (id : TypeId) : Except String (List TypeId) :=
  match pool.types[id]? with
  | some (.record fields) => .ok fields
  | some (.scalar type) => .error type.name
  | none => .error (unknownText id)

def fields? (pool : Pool) (id : TypeId) : Option (List TypeId) :=
  (pool.fieldsOf id).toOption

def isRecord (pool : Pool) (id : TypeId) : Bool := (pool.fields? id).isSome

def intern (pool : Pool) (fields : List TypeId) : TypeId × Pool :=
  match pool.interned.lookup fields with
  | some id => (id, pool)
  | none =>
      (pool.size,
        { types := pool.types ++ [.record fields]
          interned := pool.interned ++ [(fields, pool.size)] })

/-- Forgets the types from `mark` on. A pool that has not grown past the mark stays as it is. -/
def rollback (pool : Pool) (mark : Nat) : Pool :=
  if mark < pool.size then
    { types := pool.types.take mark
      interned := pool.interned.filter fun entry => entry.2 < mark }
  else pool

end Pool

end KernelIR
