import UsageLine.Tag

/-!
# The fields of a tag

Tags are stored as JSON with six fields.  Each has its key, its place where
they are listed, and its turn where they are visited by key.
-/

namespace UsageLine

inductive Field
  | name
  | kind
  | required
  | rest
  | options
  | literal
  deriving DecidableEq, Repr

namespace Field

def key : Field → Text
  | .name => ['n', 'a', 'm', 'e']
  | .kind => ['t', 'y', 'p', 'e']
  | .required => ['r', 'e', 'q', 'u', 'i', 'r', 'e', 'd']
  | .rest => ['r', 'e', 's', 't']
  | .options => ['o', 'p', 't', 'i', 'o', 'n', 's']
  | .literal => ['l', 'i', 't', 'e', 'r', 'a', 'l']

/-- The fields in the order in which a list holds them and an object is
written. -/
def inOrder : List Field :=
  [.name, .kind, .required, .rest, .options, .literal]

/-- The fields in the order of their keys, in which an object is visited. -/
def byKey : List Field :=
  [.literal, .name, .options, .required, .rest, .kind]

def ofKey? (key : Text) : Option Field :=
  inOrder.find? fun field => field.key == key

theorem ofKey?_key (field : Field) : ofKey? field.key = some field := by
  cases field <;> decide

theorem key_of_ofKey? {key : Text} {field : Field}
    (found : ofKey? key = some field) : field.key = key := by
  simpa using List.find?_some found

end Field

end UsageLine
