/-!
Documents: trees of integers, texts, lists and named fields, the form in which graphs, pools and
layouts are stored. Here are the readers from which those of the stored types are made. A reader
gives nothing if the document has another shape than the one it reads.
-/

set_option autoImplicit false

namespace KernelIR

-- Powers are those of the core library, whatever else is in scope.
attribute [local instance (2000)] instPowNat

inductive Document where
  | null
  | bool (value : Bool)
  | int (value : Int)
  | text (value : String)
  | list (items : List Document)
  | record (fields : List (String × Document))
deriving Inhabited

namespace Document

def nat (value : Nat) : Document := .int value

def nats (values : List Nat) : Document := .list (values.map nat)

def word? (bits : Nat) : Document → Option Nat
  | .int value => if 0 ≤ value ∧ value < 2 ^ bits then some value.toNat else none
  | _ => none

def word32? : Document → Option Nat := word? 32

def integer? : Document → Option Int
  | .int value => some value
  | _ => none

def bool? : Document → Option Bool
  | .bool value => some value
  | _ => none

def items? : Document → Option (List Document)
  | .list items => some items
  | _ => none

def listOf? {α : Type} (read : Document → Option α) (document : Document) : Option (List α) := do
  let items ← document.items?
  items.mapM read

/-- A field that has to be named. Fields that nobody asks for are ignored. -/
def field? (name : String) : Document → Option Document
  | .record fields => fields.lookup name
  | _ => none

/-- All fields of a record, in the order of their names. The names may be left out: a list stands
for the record if it has one item for each field, in this order. -/
def fields? (names : List String) : Document → Option (List Document)
  | .record fields => names.mapM fun name => fields.lookup name
  | .list items => if items.length = names.length then some items else none
  | _ => none

/-- A choice is a record of one field, named for the alternative, or the bare name of an
alternative that carries nothing. -/
structure Choice where
  name : String
  content : Option Document

def choice? : Document → Option Choice
  | .text name => some ⟨name, none⟩
  | .record [(name, content)] => some ⟨name, some content⟩
  | _ => none

/-- An alternative that carries nothing may be written with a null. -/
def Choice.isBare (choice : Choice) : Bool :=
  match choice.content with
  | none => true
  | some .null => true
  | some _ => false

def choice (name : String) (content : Document) : Document := .record [(name, content)]

end Document

end KernelIR
