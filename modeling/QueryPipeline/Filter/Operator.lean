/-!
# Filter operators

A client names an operator by the words its user sees. `Operator.ofName` and `Operator.name` are
inverse to each other on the operators that names give (`Operator.name_ofName`): a name that is not
known is kept as it was written.
-/

namespace QueryPipeline

/-- An operator of a condition. -/
inductive Operator where
  /-- Full-text search over the record. -/
  | text
  | startsWith
  | endsWith
  | contains
  /-- The value as it is, neither coerced nor taken as a list of choices. -/
  | equal
  /-- The coerced value, or one of several. -/
  | eq
  | absent
  | present
  | gte
  | lte
  | gt
  | lt
  | ne
  | unknown (name : String)
deriving DecidableEq, Repr

namespace Operator

/-- The operator of a name. -/
def ofName : String → Operator
  | "text" => .text
  | "Start With" => .startsWith
  | "End With" => .endsWith
  | "Include" => .contains
  | "Equal" => .equal
  | "=" => .eq
  | "Empty" => .absent
  | "not Empty" => .present
  | ">=" => .gte
  | "<=" => .lte
  | ">" => .gt
  | "<" => .lt
  | "!=" => .ne
  | name => .unknown name

/-- The name of an operator. -/
def name : Operator → String
  | .text => "text"
  | .startsWith => "Start With"
  | .endsWith => "End With"
  | .contains => "Include"
  | .equal => "Equal"
  | .eq => "="
  | .absent => "Empty"
  | .present => "not Empty"
  | .gte => ">="
  | .lte => "<="
  | .gt => ">"
  | .lt => "<"
  | .ne => "!="
  | .unknown name => name

/-- The operator of a condition that names none. -/
def default : Operator := .unknown ""

/-- An operator keeps the name it was given. -/
theorem name_ofName (text : String) : (ofName text).name = text := by
  unfold ofName
  split <;> rfl

end Operator

end QueryPipeline
