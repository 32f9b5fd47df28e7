import QueryPipeline.Projection

/-!
# Requests

A request holds the parts that a client wrote, most of them still as text. A page number may be
given as text or as a number, whose text then stands in for it: a whole number by its digits, any
other by all digits of the nearest shortest decimal.
-/

namespace QueryPipeline

open Json

/-- A request as a client sends it. -/
structure RawRequest where
  filter : Option String
  sort : Option String
  aggregation : Option String
  fields : Option Projection
  page : Option String
  pageSize : Option String
deriving DecidableEq

/-- The text of a number: a whole number of 64 bits by its digits, another as a double. -/
def Json.Quantity.text : Quantity → String
  | .double x => String.ofList (Double.plain.text x)
  | .whole n =>
    if n < 0x8000000000000000 then String.ofList (Text.integer n)
    else String.ofList (Double.plain.text (Double.ofNatural n.toNat))

/-- Reads a text or a number, by its text. -/
def readTextOrNumber : Reader String := fun room node => do
  node.check room
  match node with
  | .string s => orFault s.read
  | .number n => do
    let q ← orFault n.read
    return q.text
  | _ => refuse (.noForm "Lenient")

/-- The parts of a request read so far from an object. -/
structure RequestDraft where
  filter : Option (Option String)
  sort : Option (Option String)
  aggregation : Option (Option String)
  fields : Option (Option Projection)
  page : Option (Option String)
  pageSize : Option (Option String)

namespace RequestDraft

/-- The draft of an object of which nothing is read. -/
def empty : RequestDraft := ⟨none, none, none, none, none, none⟩

/-- The names of the members that a request takes. -/
def names : List String :=
  ["filter", "sort", "aggregation", "fields", "page", "page_size"]

/-- What is done with a member of a request. -/
def field (room : Nat) (name : String) (draft : RequestDraft) : FieldStep RequestDraft :=
  match name with
  | "filter" => .once draft.filter "filter" fun node => do
      return { draft with filter := some (← readOptional readText room node) }
  | "sort" => .once draft.sort "sort" fun node => do
      return { draft with sort := some (← readOptional readText room node) }
  | "aggregation" => .once draft.aggregation "aggregation" fun node => do
      return { draft with aggregation := some (← readOptional readText room node) }
  | "fields" => .once draft.fields "fields" fun node => do
      return { draft with fields := some (← readOptional Projection.read room node) }
  | "page" => .once draft.page "page" fun node => do
      return { draft with page := some (← readOptional readTextOrNumber room node) }
  | "page_size" => .once draft.pageSize "page_size" fun node => do
      return { draft with pageSize := some (← readOptional readTextOrNumber room node) }
  | _ => .pass

/-- The request of a draft; a missing part is as good as null. -/
def request (draft : RequestDraft) : RawRequest :=
  ⟨draft.filter.join, draft.sort.join, draft.aggregation.join, draft.fields.join, draft.page.join,
    draft.pageSize.join⟩

end RequestDraft

namespace RawRequest

/-- The request of an object. -/
def readMembers (room : Nat) (members : Members) : Except ReadError RawRequest := do
  return (← members.readFields (RequestDraft.field room) .empty).request

/-- Reads a request. In an array the first four parts must not be missing, though they may be
null. -/
def read : Reader RawRequest :=
  readRecord "struct RawRequest"
    (fun room items => do
      let missing (index : Nat) :=
        Mismatch.wrongLength index "struct RawRequest with 6 elements"
      let (filter, items) ← items.nextOrRefuse (missing 0) (readOptional readText room)
      let (sort, items) ← items.nextOrRefuse (missing 1) (readOptional readText room)
      let (aggregation, items) ← items.nextOrRefuse (missing 2) (readOptional readText room)
      let (fields, items) ← items.nextOrRefuse (missing 3) (readOptional Projection.read room)
      let (page, items) ← items.nextOr none (readOptional readTextOrNumber room)
      let (pageSize, items) ← items.nextOr none (readOptional readTextOrNumber room)
      return (⟨filter, sort, aggregation, fields, page, pageSize⟩, items))
    readMembers

end RawRequest

end QueryPipeline
