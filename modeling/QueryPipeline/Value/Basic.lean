import QueryPipeline.Keyed

/-!
# Values and documents

A `Value` is what a field of a stored document may hold. A document is a keyed list of values:
`Document.put` keeps a key at its first place and the last value given to it, so a document that is
built by `put` has distinct keys (`Document.Distinct`).
-/

namespace QueryPipeline

/-- The identifier of a stored record: twelve bytes. -/
structure ObjectId where
  bytes : List UInt8
  length_bytes : bytes.length = 12
deriving DecidableEq

/-- A decimal floating-point number in its interchange form: sixteen bytes, the least first. -/
structure Decimal128 where
  bytes : List UInt8
  length_bytes : bytes.length = 16
deriving DecidableEq

/-- What a field of a document may hold. -/
inductive Value where
  | null
  | boolean (b : Bool)
  | string (text : String)
  | int32 (n : Int32)
  | int64 (n : Int64)
  | double (x : Float)
  | array (items : List Value)
  | document (entries : List (String × Value))
  | objectId (id : ObjectId)
  /-- A moment, in milliseconds since the start of 1970. -/
  | dateTime (milliseconds : Int64)
  | binary (subtype : UInt8) (bytes : List UInt8)
  | decimal (d : Decimal128)
  | code (text : String)
  | codeWithScope (text : String) (scope : List (String × Value))
  | symbol (text : String)
  | timestamp (seconds increment : UInt32)
  /-- The options are letters in alphabetical order. -/
  | regex (pattern options : String)
  | dbPointer (space : String) (id : ObjectId)
  | undefined
  | maxKey
  | minKey

instance : Inhabited Value := ⟨.null⟩

/-- A document: values in order of the first occurrence of their keys. -/
abbrev Document := Keyed Value

namespace Document

/-- The document without entries. -/
def empty : Document := []

/-- The document with one entry. -/
def single (key : String) (value : Value) : Document := [(key, value)]

/-- No key occurs twice. -/
def Distinct (d : Document) : Prop := (Keyed.keys d).Nodup

instance (d : Document) : Decidable d.Distinct := inferInstanceAs (Decidable (List.Nodup _))

end Document

end QueryPipeline
