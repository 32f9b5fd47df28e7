import QueryPipeline.FieldName
import QueryPipeline.Json.Error
import QueryPipeline.Value.Display

/-!
# Errors of compiling a request

A compile error is a cause with its data. The client reads its words, so they name the client's own
label, operator and field (`CompileError.display`). For a part that is not read they hold what the
libraries that read JSON say of its text (`Json.Report`); `CompileError.message` are the words without
that.
-/

namespace QueryPipeline

/-- The parts of a request that a client writes. -/
inductive Part where
  | filter
  | sort
  | aggregation
  | projection
deriving DecidableEq, Repr

/-- The name of a part in messages. -/
def Part.name : Part → String
  | .filter => "filter"
  | .sort => "sort"
  | .aggregation => "aggregation"
  | .projection => "projection"

/-- What is wrong with a condition. -/
inductive ConditionFault where
  | notText
  | label (fault : NameFault)
deriving DecidableEq, Repr

/-- The words for what is wrong with a condition. -/
def ConditionFault.message : ConditionFault → String
  | .notText => "expected a string value"
  | .label .empty => "label must not be empty"
  | .label .dollar => "label must not start with `$`"

/-- What is wrong with a field. -/
inductive FieldFault where
  | name (fault : NameFault)
  /-- The name is one that the group stage writes itself. -/
  | reserved
  /-- A projected field is not plain. -/
  | notPlain
  /-- The value of a projected field is no flag. -/
  | notFlag (value : Value)

/-- The words for what is wrong with a field. -/
def FieldFault.message : FieldFault → String
  | .name .empty => "field must not be empty"
  | .name .dollar => "field must not start with `$`"
  | .reserved => "name is reserved by the group stage"
  | .notPlain => "field must be a plain path"
  | .notFlag value => "expected 0, 1 or a boolean, got " ++ value.display

/-- Why a request does not compile. -/
inductive CompileError where
  /-- The text of a part is not what the part asks for. -/
  | unreadable (part : Part) (cause : Json.ReadError)
  | emptyFilter
  | invalidCondition (label operator : String) (fault : ConditionFault)
  | invalidField (part : Part) (field : String) (fault : FieldFault)
  | unknownOperator (name : String)
  | unknownAccumulator (name : String)
  | unknownDirection (name : String)

/-- The words for a compile error, where `report` is what the libraries that read JSON say of the
text of each part. -/
def CompileError.display (report : Part → Json.Report) : CompileError → String
  | .unreadable part cause =>
    "malformed " ++ part.name ++ " input: " ++ cause.display (report part)
  | .emptyFilter => "filter must contain at least one condition"
  | .invalidCondition label operator fault =>
    "invalid condition on `" ++ label ++ "` (" ++ operator ++ "): " ++ fault.message
  | .invalidField part field fault =>
    "invalid " ++ part.name ++ " field `" ++ field ++ "`: " ++ fault.message
  | .unknownOperator name => "unknown filter operator: " ++ name
  | .unknownAccumulator name => "unknown aggregation operation: " ++ name
  | .unknownDirection name => "unknown sort direction: " ++ name

/-- The words for an unreadable part, without the cause. -/
def unreadableHeadline (part : Part) : String :=
  "malformed " ++ part.name ++ " input"

/-- The words for a compile error as far as the libraries that read JSON have no part in them: where
a text is not JSON they do not say why, and they give no place. -/
def CompileError.message (e : CompileError) : String :=
  match e with
  | .unreadable part (.fault _) => unreadableHeadline part
  | .unreadable part (.mismatch m) => unreadableHeadline part ++ ": " ++ m.message
  | .emptyFilter | .invalidCondition .. | .invalidField .. | .unknownOperator _
  | .unknownAccumulator _ | .unknownDirection _ => e.display fun _ => default

/-- A reading error as the error of a part. -/
def orUnreadable {α : Type} (part : Part) : Except Json.ReadError α → Except CompileError α
  | .ok a => .ok a
  | .error cause => .error (.unreadable part cause)

end QueryPipeline
