import KernelIR.Pool.Basic

/-!
Types unfolded into trees, and their text. A pool that was built by interning has no cycles, so
each of its handles unfolds; a pool from elsewhere may have some that do not.
-/

set_option autoImplicit false

namespace KernelIR

inductive TypeTree where
  | unknown (id : TypeId)
  | scalar (type : ScalarType)
  | record (fields : List TypeTree)

namespace TypeTree

mutual

def text : TypeTree → String
  | .unknown id => Pool.unknownText id
  | .scalar type => type.name
  | .record fields => "\x7b" ++ listText fields ++ "\x7d"

def listText : List TypeTree → String
  | [] => ""
  | [tree] => tree.text
  | tree :: next :: trees => tree.text ++ ", " ++ listText (next :: trees)

end

end TypeTree

namespace Pool

def treeFrom? (pool : Pool) : Nat → TypeId → Option TypeTree
  | 0, _ => none
  | fuel + 1, id =>
      match pool.types[id]? with
      | none => some (.unknown id)
      | some (.scalar type) => some (.scalar type)
      | some (.record fields) => (fields.mapM (treeFrom? pool fuel)).map .record

/-- A branch without repetition meets each structure of the pool at most once before its leaf. -/
def tree? (pool : Pool) (id : TypeId) : Option TypeTree := pool.treeFrom? (pool.size + 1) id

def render? (pool : Pool) (id : TypeId) : Option String := (pool.tree? id).map TypeTree.text

end Pool

end KernelIR
