import QueryPipeline.Filter.Operator
import QueryPipeline.Value.Read

/-!
# Conditions

A condition is one term of a client's filter: a label, an operator and a value. It is read from an
object whose members may be written with a capital letter, or from an array of the three. What is
missing is the empty label, the operator of no name, and null.
-/

namespace QueryPipeline

open Json

/-- One term of a filter. -/
structure Condition where
  label : String
  operator : Operator
  value : Value

/-- The parts of a condition read so far from an object. -/
structure ConditionDraft where
  label : Option String
  operator : Option Operator
  value : Option Value

namespace ConditionDraft

/-- The draft of an object of which nothing is read. -/
def empty : ConditionDraft := ⟨none, none, none⟩

/-- What is done with a member of a condition. Each part has two spellings and counts as one. -/
def field (room : Nat) (name : String) (draft : ConditionDraft) : FieldStep ConditionDraft :=
  match name with
  | "label" | "Label" => .once draft.label "label" fun node => do
      return { draft with label := some (← readText room node) }
  | "operation" | "Operation" => .once draft.operator "operation" fun node => do
      return { draft with operator := some (.ofName (← readText room node)) }
  | "condition" | "Condition" => .once draft.value "condition" fun node => do
      return { draft with value := some (← readValue room node) }
  | _ => .pass

/-- The condition of a draft. -/
def condition (draft : ConditionDraft) : Condition :=
  ⟨draft.label.getD "", draft.operator.getD .default, draft.value.getD .null⟩

end ConditionDraft

/-- Reads an operator by its name. -/
def readOperator : Reader Operator := fun room node => do
  return .ofName (← readText room node)

/-- Reads a condition. -/
def Condition.read : Reader Condition :=
  readRecord "struct Condition"
    (fun room items => do
      let (label, items) ← items.nextOr "" (readText room)
      let (operator, items) ← items.nextOr .default (readOperator room)
      let (value, items) ← items.nextOr .null (readValue room)
      return (⟨label, operator, value⟩, items))
    (fun room members => do
      return (← members.readFields (ConditionDraft.field room) .empty).condition)

end QueryPipeline
