import QueryPipeline.Value.Basic

/-!
# Functions in condition values

A client may write the name of a function in place of a value, such as `today`. A `Resolver` says
which texts are such names and what they stand for; `coerce` replaces a value that is one. A value
that is no text stays as it is, and so do texts inside arrays and documents.
-/

namespace QueryPipeline

/-- How a text that is the whole value of a condition is taken. -/
inductive ValueClass where
  /-- The name of a function, which its result replaces. -/
  | functionRef
  | plainString
  | other
deriving DecidableEq, Repr

/-- The functions that values may name. -/
structure Resolver where
  classify : String → ValueClass
  resolve : String → Value

namespace Resolver

/-- The resolver that knows no function. -/
def noop : Resolver where
  classify _ := .plainString
  resolve _ := .null

/-- The resolver of a table: a text names a function exactly if it is a key of the table. -/
def ofTable (table : Keyed Value) : Resolver where
  classify text := if (table.lookup text).isSome then .functionRef else .plainString
  resolve name := (table.lookup name).getD .null

end Resolver

/-- Replaces a text that names a function by what it stands for. -/
def coerce (resolver : Resolver) : Value → Value
  | .string text =>
    match resolver.classify text with
    | .functionRef => resolver.resolve text
    | .plainString | .other => .string text
  | value => value

/-- A value of the table replaces its key, whatever the value is. -/
theorem coerce_ofTable (table : Keyed Value) (text : String) :
    coerce (.ofTable table) (.string text) = (table.lookup text).getD (.string text) := by
  cases h : table.lookup text <;> simp [coerce, Resolver.ofTable, h]

end QueryPipeline
