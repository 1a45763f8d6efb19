import WebClient.Text.Fold

/-!
# Header fields

The fields of a message: names without regard to ASCII case, in the order in
which each name first came, every name with the values it was given, in order.
-/

set_option autoImplicit false

namespace WebClient

/-- A field name as first written, and its values. -/
structure Field where
  name : Text
  values : List Text
  deriving DecidableEq, Repr

abbrev Fields := List Field

namespace Field

def isNamed (field : Field) (name : Text) : Bool :=
  Text.sameFolded field.name name

end Field

namespace Fields

/-- Changes the values of the name's field; a name that has none gets one, at the
end, with the values that stand for a new field. -/
def alter (name : Text) (change : List Text → List Text) (fresh : List Text) : Fields → Fields
  | [] => [⟨name, fresh⟩]
  | field :: rest =>
    if field.isNamed name then { field with values := change field.values } :: rest
    else field :: alter name change fresh rest

def append (fields : Fields) (name value : Text) : Fields :=
  alter name (· ++ [value]) [value] fields

/-- Makes a value the only one of its name. The name keeps its place. -/
def insert (fields : Fields) (name value : Text) : Fields :=
  alter name (fun _ => [value]) [value] fields

def find? (fields : Fields) (name : Text) : Option Field :=
  List.find? (fun field => field.isNamed name) fields

def getAll (fields : Fields) (name : Text) : List Text :=
  ((fields.find? name).map Field.values).getD []

def get? (fields : Fields) (name : Text) : Option Text :=
  (fields.getAll name).head?

def contains (fields : Fields) (name : Text) : Bool :=
  (fields.find? name).isSome

def erase (fields : Fields) (name : Text) : Fields :=
  fields.eraseP fun field => field.isNamed name

/-- A value continued after a blank, or begun if it is empty. -/
def continued (value more : Text) : Text :=
  if value.isEmpty then more else value ++ ' ' :: more

def mapLast {α : Type} (change : α → α) : List α → List α
  | [] => []
  | [only] => [change only]
  | first :: second :: rest => first :: mapLast change (second :: rest)

/-- Continues the last value of the field whose name came last, if there is one. -/
def extendLast? (fields : Fields) (more : Text) : Option Fields :=
  if fields.isEmpty then none
  else some <| mapLast
    (fun field => { field with values := mapLast (continued · more) field.values }) fields

end Fields

end WebClient
