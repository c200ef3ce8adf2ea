import KernelIR.Pool.Basic
import KernelIR.Failure

/-!
The type of a handle, and the type at a path inside a structure type. Each step of the path must
meet a structure type and stay within its fields; the first step that does not is what the error
reports.
-/

set_option autoImplicit false

namespace KernelIR.Pool

def find (pool : Pool) (id : TypeId) : Except Fault TypeData :=
  match pool.types[id]? with
  | some type => .ok type
  | none => .error (.outOfBounds pool.size id)

/-- Walks `path` from `id`. Errors speak of the `whole` path that the walk is part of. -/
def walk (pool : Pool) (whole : Path) : TypeId → Path → Except BuildError TypeId
  | id, [] => .ok id
  | id, index :: path =>
      match pool.fieldsOf id with
      | .error found => .error (.typeMismatch "a structure type" found)
      | .ok fields =>
          match fields[index]? with
          | none => .error (.outOfRange whole index fields.length)
          | some field => walk pool whole field path

/-- The empty path addresses no field. -/
def resolve (pool : Pool) (id : TypeId) (path : Path) : Except BuildError TypeId :=
  if path.isEmpty then .error .emptyPath else pool.walk path id path

end KernelIR.Pool
