import QueryPipeline.CompileError
import QueryPipeline.Filter.Condition
import QueryPipeline.Filter.Pattern
import QueryPipeline.Options
import QueryPipeline.Resolver

/-!
# Filters

A filter is a list of entries, one for each condition of the client in order, that must all hold.
`Condition.compile` makes the entry of one condition: the label as the only key, with a predicate
under it. Two operators have no label in their entry: text search, which the store keeps at the top
of a query, and under the lenient policy an unknown operator, whose entry `{}` admits everything.
-/

namespace QueryPipeline

open Json

/-- A compiled filter. -/
structure Filter where
  entries : List Document

namespace Filter

/-- The number of entries. -/
def size (filter : Filter) : Nat :=
  filter.entries.length

/-- Every entry admits everything. -/
def isEmpty (filter : Filter) : Bool :=
  filter.entries.all List.isEmpty

/-- A conjunction of documents. -/
def conjunction (documents : List Document) : Document :=
  Document.single "$and" (.array (documents.map .document))

/-- The filter as one document: its only entry, or the conjunction of its entries. -/
def toDocument (filter : Filter) : Document :=
  match filter.entries with
  | [only] => only
  | entries => conjunction entries

end Filter

/-! ## Predicates -/

/-- The predicate that compares by one operator of the store. -/
def comparison (key : String) (operand : Value) : Value :=
  .document (Document.single key operand)

/-- The predicate that matches a pattern without regard to case. -/
def patternPredicate (pattern : String) : Value :=
  .document [("$regex", .string pattern), ("$options", .string "i")]

namespace Condition

/-- The error of a condition. -/
def invalid {α : Type} (c : Condition) (fault : ConditionFault) : Except CompileError α :=
  .error (.invalidCondition c.label c.operator.name fault)

/-- The value of a condition that must be a text. -/
def textValue (c : Condition) : Except CompileError String :=
  match c.value with
  | .string text => .ok text
  | _ => c.invalid .notText

/-- The entry of a condition under its label; the label must be a plain name. -/
def labelled (c : Condition) (predicate : Value) : Except CompileError Document :=
  match nameFault? c.label with
  | some fault => c.invalid (.label fault)
  | none => .ok (Document.single c.label predicate)

/-- The entry of a condition whose text is matched by a pattern. The text is looked at before the
label. -/
def matched (c : Condition) (pattern : String → String) : Except CompileError Document := do
  let text ← c.textValue
  c.labelled (patternPredicate (pattern text))

/-- The predicate of the operator `=`: one of several values if the value is an array, and the
coerced value otherwise. -/
def equality (resolver : Resolver) (value : Value) : Value :=
  match value with
  | .array items => comparison "$in" (.array items)
  | value => comparison "$eq" (coerce resolver value)

/-- The entry of one condition. -/
def compile (resolver : Resolver) (policy : UnknownPolicy) (c : Condition) :
    Except CompileError Document :=
  match c.operator with
  | .text => do
    let text ← c.textValue
    return Document.single "$text" (.document (Document.single "$search" (.string text)))
  | .startsWith => c.matched Pattern.beginning
  | .endsWith => c.matched Pattern.ending
  | .contains => c.matched Pattern.within
  | .equal => c.labelled (comparison "$eq" c.value)
  | .eq => c.labelled (equality resolver c.value)
  | .absent => c.labelled (comparison "$exists" (.boolean false))
  | .present => c.labelled (comparison "$exists" (.boolean true))
  | .gte => c.labelled (comparison "$gte" (coerce resolver c.value))
  | .lte => c.labelled (comparison "$lte" (coerce resolver c.value))
  | .gt => c.labelled (comparison "$gt" (coerce resolver c.value))
  | .lt => c.labelled (comparison "$lt" (coerce resolver c.value))
  | .ne => c.labelled (comparison "$ne" (coerce resolver c.value))
  | .unknown name =>
    match policy with
    | .reject => .error (.unknownOperator name)
    | .ignore => .ok Document.empty

end Condition

/-! ## Filters from conditions and from text -/

/-- Compiles conditions in order; there must be one at least. -/
def compileConditions (resolver : Resolver) (policy : UnknownPolicy) (conditions : List Condition) :
    Except CompileError Filter :=
  match conditions with
  | [] => .error .emptyFilter
  | conditions => do
    let entries ← conditions.mapM (Condition.compile resolver policy)
    return ⟨entries⟩

/-- Reads and compiles an array of conditions. -/
def compileFilter (resolver : Resolver) (policy : UnknownPolicy) (text : String) :
    Except CompileError Filter := do
  let conditions ← orUnreadable .filter (parse (readList Condition.read) text)
  compileConditions resolver policy conditions

end QueryPipeline
