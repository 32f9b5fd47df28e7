import QueryPipeline.Compiler

/-!
# Settings of the service

The service is configured by variables, each of which may be missing. A page size that is no
positive number and a strictness that is no word for yes count as missing; a table of functions
that cannot be read is an error.
-/

namespace QueryPipeline

open Json

/-- What the service is configured with. -/
structure Settings where
  address : String
  options : CompilerOptions
  functions : Keyed Value

namespace Settings

/-- The address where none is configured. -/
def defaultAddress : String := "0.0.0.0:9701"

/-- The page size that a variable gives. -/
def pageSize (text : Option String) : Int64 :=
  ((text.bind fun t => Text.int64? t.toList).filter fun n => decide (0 < n)).getD standardPageSize

/-- The policy that a variable gives. -/
def policy : Option String → UnknownPolicy
  | some "1" => .reject
  | some "true" => .reject
  | _ => .ignore

/-- The functions that a variable gives. -/
def functionTable : Option String → Except ReadError (Keyed Value)
  | some text => parse readTable text
  | none => .ok []

/-- The settings that variables give. -/
def ofLookup (lookup : String → Option String) : Except ReadError Settings := do
  let functions ← functionTable (lookup "SIFT_FUNCTIONS")
  return {
    address := (lookup "SIFT_API_ADDR").getD defaultAddress
    options := ⟨policy (lookup "SIFT_STRICT"), pageSize (lookup "SIFT_DEFAULT_PAGE_SIZE")⟩
    functions := functions }

/-- The compiler of the service. -/
def compiler (settings : Settings) : Compiler :=
  ⟨.ofTable settings.functions, settings.options⟩

end Settings

end QueryPipeline
