import QueryPipeline.CompileError
import QueryPipeline.Options
import QueryPipeline.Text.Blank
import QueryPipeline.Value.Read

/-!
# Grouping

A group stage has a key, perhaps a title that is passed through, and a keyed list of outputs. The
names that the stage writes itself are reserved: `_id` always, and the title's name as soon as
there is a title. A client's spec is compiled name by name; under the lenient policy an output
whose accumulator is unknown is dropped before its name is looked at.
-/

namespace QueryPipeline

open Json

/-! ## Accumulators -/

/-- What an output computes over the records of a group. -/
inductive Accumulator where
  | avg
  | sum
  /-- The number of records, whatever the field holds. -/
  | count
  | min
  | max
  | first
  | unknown (name : String)
deriving DecidableEq, Repr

namespace Accumulator

/-- The accumulator of a name. -/
def ofName : String → Accumulator
  | "avg" => .avg
  | "sum" => .sum
  | "count" => .count
  | "min" => .min
  | "max" => .max
  | "first" => .first
  | name => .unknown name

/-- The name of an accumulator. -/
def name : Accumulator → String
  | .avg => "avg"
  | .sum => "sum"
  | .count => "count"
  | .min => "min"
  | .max => "max"
  | .first => "first"
  | .unknown name => name

/-- The accumulator of an output that names none. -/
def default : Accumulator := .unknown ""

/-- The expression of the store that computes an output; an unknown accumulator has none. -/
def expression? (accumulator : Accumulator) (field : String) : Option Value :=
  let ofField (operator : String) : Option Value :=
    some (.document (Document.single operator (.string (fieldReference field))))
  match accumulator with
  | .avg => ofField "$avg"
  | .sum => ofField "$sum"
  | .count => some (.document (Document.single "$sum" (.int32 1)))
  | .min => ofField "$min"
  | .max => ofField "$max"
  | .first => ofField "$first"
  | .unknown _ => none

end Accumulator

/-! ## The stage -/

/-- The key under which a group stage writes the value that its records share. -/
def groupKeyField : String := "_id"

/-- The key under which a group stage writes its title. -/
def groupTitleField : String := "group_by_title"

/-- The error of a field of a grouping. -/
def invalidGroupField {α : Type} (field : String) (fault : FieldFault) : Except CompileError α :=
  .error (.invalidField .aggregation field fault)

/-- A field that references are made to must be a plain name. -/
def checkGroupField (field : String) : Except CompileError Unit :=
  match nameFault? field with
  | some fault => invalidGroupField field (.name fault)
  | none => .ok ()

/-- A group stage. -/
structure GroupStage where
  /-- The field to group by; the empty name puts every record into one group. -/
  key : String
  title : Option String
  outputs : Keyed Accumulator
deriving DecidableEq

namespace GroupStage

/-- The stage that groups by a field. -/
def ofKey (key : String) : GroupStage := ⟨key, none, []⟩

/-- Passes a field of the first record of each group through as its title. -/
def withTitle (stage : GroupStage) (field : String) : GroupStage :=
  { stage with title := some field }

/-- A name that the stage writes itself. -/
def isReserved (stage : GroupStage) (field : String) : Bool :=
  field == groupKeyField || (field == groupTitleField && stage.title.isSome)

/-- Adds an output. A field that is present keeps its place and takes the new accumulator. -/
def push (stage : GroupStage) (field : String) (accumulator : Accumulator) :
    Except CompileError GroupStage := do
  checkGroupField field
  if stage.isReserved field then invalidGroupField field .reserved
  else return { stage with outputs := stage.outputs.put field accumulator }

/-- The value of the key in the stage's document. -/
def keyValue (stage : GroupStage) : Value :=
  if stage.key = "" then .null else .string (fieldReference stage.key)

/-- The title's expression. -/
def titleValue (title : String) : Value :=
  .document (Document.single "$first" (.string (fieldReference title)))

/-- The entry of an output in the stage's document; one without an expression has none. -/
def outputEntry? (output : String × Accumulator) : Option (String × Value) :=
  (output.2.expression? output.1).map fun expression => (output.1, expression)

/-- The entries that the stage writes itself: the key, and the title if there is one. -/
def ownEntries (stage : GroupStage) : List (String × Value) :=
  (groupKeyField, stage.keyValue) ::
    (stage.title.map fun title => (groupTitleField, titleValue title)).toList

/-- The stage as a document: its own entries, then the outputs. An output that has the name of an
entry before it takes that entry's place. -/
def toDocument (stage : GroupStage) : Document :=
  Keyed.ofUpdates (stage.ownEntries ++ stage.outputs.filterMap outputEntry?)

end GroupStage

/-! ## Specs -/

/-- An output as a client writes it. -/
structure AggregatorSpec where
  field : String
  accumulator : Accumulator
deriving DecidableEq

/-- A grouping as a client writes it. -/
structure AggregationSpec where
  groupBy : String
  title : Option String
  aggregators : List AggregatorSpec
deriving DecidableEq

/-- The parts of an output read so far from an object. -/
structure AggregatorDraft where
  field : Option String
  accumulator : Option Accumulator

/-- Reads an accumulator by its name. -/
def readAccumulator : Reader Accumulator := fun room node => do
  return .ofName (← readText room node)

/-- What is done with a member of an output. -/
def AggregatorDraft.step (room : Nat) (name : String) (draft : AggregatorDraft) :
    FieldStep AggregatorDraft :=
  match name with
  | "aggregate" => .once draft.field "aggregate" fun node => do
      return { draft with field := some (← readText room node) }
  | "operation" => .once draft.accumulator "operation" fun node => do
      return { draft with accumulator := some (← readAccumulator room node) }
  | _ => .pass

/-- Reads an output. -/
def AggregatorSpec.read : Reader AggregatorSpec :=
  readRecord "struct AggregatorSpec"
    (fun room items => do
      let (field, items) ← items.nextOr "" (readText room)
      let (accumulator, items) ← items.nextOr .default (readAccumulator room)
      return (⟨field, accumulator⟩, items))
    (fun room members => do
      let draft ← members.readFields (AggregatorDraft.step room) ⟨none, none⟩
      return ⟨draft.field.getD "", draft.accumulator.getD .default⟩)

/-- The parts of a grouping read so far from an object. -/
structure AggregationDraft where
  groupBy : Option String
  title : Option (Option String)
  aggregators : Option (List AggregatorSpec)

/-- Reads a list of outputs, for which null stands if there are none. -/
def readAggregators : Reader (List AggregatorSpec) := fun room node => do
  return (← readOptional (readList AggregatorSpec.read) room node).getD []

/-- What is done with a member of a grouping. -/
def AggregationDraft.step (room : Nat) (name : String) (draft : AggregationDraft) :
    FieldStep AggregationDraft :=
  match name with
  | "group_by" => .once draft.groupBy "group_by" fun node => do
      return { draft with groupBy := some (← readText room node) }
  | "group_by_title" => .once draft.title "group_by_title" fun node => do
      return { draft with title := some (← readOptional readText room node) }
  | "aggregators" => .once draft.aggregators "aggregators" fun node => do
      return { draft with aggregators := some (← readAggregators room node) }
  | _ => .pass

/-- Reads a grouping. In an array the title must not be missing, though it may be null. -/
def AggregationSpec.read : Reader AggregationSpec :=
  readRecord "struct AggregationSpec"
    (fun room items => do
      let missing := Mismatch.wrongLength 1 "struct AggregationSpec with 3 elements"
      let (groupBy, items) ← items.nextOr "" (readText room)
      let (title, items) ← items.nextOrRefuse missing (readOptional readText room)
      let (aggregators, items) ← items.nextOr [] (readAggregators room)
      return (⟨groupBy, title, aggregators⟩, items))
    (fun room members => do
      let draft ← members.readFields (AggregationDraft.step room) ⟨none, none, none⟩
      return ⟨draft.groupBy.getD "", draft.title.join, draft.aggregators.getD []⟩)

/-- Adds a client's output; one with an unknown accumulator is dropped or refused. -/
def GroupStage.add (policy : UnknownPolicy) (stage : GroupStage) (spec : AggregatorSpec) :
    Except CompileError GroupStage :=
  match spec.accumulator with
  | .unknown name =>
    match policy with
    | .reject => .error (.unknownAccumulator name)
    | .ignore => .ok stage
  | accumulator => stage.push spec.field accumulator

/-- Compiles a grouping: first the key, then the title, then the outputs in order. -/
def AggregationSpec.compile (policy : UnknownPolicy) (spec : AggregationSpec) :
    Except CompileError GroupStage := do
  if spec.groupBy ≠ "" then checkGroupField spec.groupBy
  spec.title.forM checkGroupField
  spec.aggregators.foldlM (GroupStage.add policy) ⟨spec.groupBy, spec.title, []⟩

/-- Reads and compiles a grouping; a blank text asks for none. -/
def compileAggregation (policy : UnknownPolicy) (text : String) :
    Except CompileError (Option GroupStage) :=
  if Text.isBlank text then .ok none
  else do
    let spec ← orUnreadable .aggregation (parse AggregationSpec.read text)
    return some (← spec.compile policy)

end QueryPipeline
