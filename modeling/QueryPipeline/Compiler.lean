import QueryPipeline.Pipeline
import QueryPipeline.Request

/-!
# Compiling requests

A compiler is a resolver with options. `Compiler.compileRequest` compiles the filter, the sort keys
and the grouping of a request, in this order, and assembles the pipeline. A part that is absent or
blank contributes nothing.
-/

namespace QueryPipeline

/-- What compiling needs besides the request. -/
structure Compiler where
  resolver : Resolver
  options : CompilerOptions

namespace Compiler

/-- Compiles a filter. -/
def compileFilter (compiler : Compiler) (text : String) : Except CompileError Filter :=
  QueryPipeline.compileFilter compiler.resolver compiler.options.unknown text

/-- Compiles sort keys. -/
def compileSort (compiler : Compiler) (text : String) : Except CompileError SortStage :=
  QueryPipeline.compileSort compiler.options.unknown text

/-- Compiles a grouping. -/
def compileAggregation (compiler : Compiler) (text : String) :
    Except CompileError (Option GroupStage) :=
  QueryPipeline.compileAggregation compiler.options.unknown text

/-- Assembles compiled parts. -/
def assemble (compiler : Compiler) (base : Document) (request : PipelineRequest) :
    CompiledPipeline :=
  QueryPipeline.assemble base request compiler.options.defaultPageSize

/-- A text that is there and not blank. -/
def nonBlank? (text : Option String) : Option String :=
  text.filter fun t => !Text.isBlank t

/-- Compiles a part that may be absent. -/
def optionally {α : Type} (compile : String → Except CompileError α) :
    Option String → Except CompileError (Option α)
  | none => .ok none
  | some text => (compile text).map some

/-- Compiles the parts of a request and assembles them. -/
def compileRequest (compiler : Compiler) (base : Document) (raw : RawRequest) :
    Except CompileError CompiledPipeline := do
  let filter ← optionally compiler.compileFilter (nonBlank? raw.filter)
  let sort ← optionally compiler.compileSort (nonBlank? raw.sort)
  let group ← match raw.aggregation with
    | some text => compiler.compileAggregation text
    | none => .ok none
  return compiler.assemble base ⟨filter, raw.fields, group, sort, raw.page, raw.pageSize⟩

end Compiler

end QueryPipeline
