import QueryPipeline.Compiler
import QueryPipeline.Proofs.Outcome

/-!
# What a compiled request consists of

`Compiler.compileRequest_eq_ok_iff` says that a request compiles exactly if its parts do, and that
the pipeline is then assembled from them. `mem_stages_assemble` says which stages an assembled
pipeline has.
-/

namespace QueryPipeline

variable {α : Type}

/-- A part is read exactly if its text is. -/
theorem orUnreadable_eq_ok_iff {part : Part} {read : Except Json.ReadError α} {a : α} :
    orUnreadable part read = .ok a ↔ read = .ok a := by
  cases read <;> simp [orUnreadable]

/-- A part whose text is not read fails as unreadable. -/
theorem orUnreadable_eq_error_iff {part : Part} {read : Except Json.ReadError α}
    {e : CompileError} :
    orUnreadable part read = .error e ↔
      ∃ cause, read = .error cause ∧ e = .unreadable part cause := by
  cases read <;> simp [orUnreadable, eq_comm]

namespace Compiler

/-- A part that may be absent compiles exactly if it is absent or its text compiles. -/
theorem optionally_eq_ok_iff {compile : String → Except CompileError α} {text : Option String}
    {part : Option α} :
    optionally compile text = .ok part ↔
      (text = none ∧ part = none) ∨ ∃ t a, text = some t ∧ compile t = .ok a ∧ part = some a := by
  cases text with
  | none => simp [optionally, eq_comm]
  | some t =>
    simp only [optionally, map_eq_ok_iff, reduceCtorEq, false_and, false_or, Option.some.injEq]
    constructor
    · rintro ⟨a, ha, rfl⟩
      exact ⟨t, a, rfl, ha, rfl⟩
    · rintro ⟨t, a, rfl, ha, rfl⟩
      exact ⟨a, ha, rfl⟩

/-- A request is compiled in three steps, of which each may fail. -/
theorem compileRequest_eq (compiler : Compiler) (base : Document) (raw : RawRequest) :
    compiler.compileRequest base raw = (do
      let filter ← optionally compiler.compileFilter (nonBlank? raw.filter)
      let sort ← optionally compiler.compileSort (nonBlank? raw.sort)
      let group ← raw.aggregation.elim (.ok none) compiler.compileAggregation
      return compiler.assemble base ⟨filter, raw.fields, group, sort, raw.page, raw.pageSize⟩) := by
  unfold compileRequest
  cases raw.aggregation <;> rfl

/-- A request compiles exactly if its filter, its sort keys and its grouping do; the pipeline is
assembled from what they compile to. -/
theorem compileRequest_eq_ok_iff {compiler : Compiler} {base : Document} {raw : RawRequest}
    {pipeline : CompiledPipeline} :
    compiler.compileRequest base raw = .ok pipeline ↔
      ∃ filter sort group,
        optionally compiler.compileFilter (nonBlank? raw.filter) = .ok filter ∧
        optionally compiler.compileSort (nonBlank? raw.sort) = .ok sort ∧
        raw.aggregation.elim (.ok none) compiler.compileAggregation = .ok group ∧
        compiler.assemble base ⟨filter, raw.fields, group, sort, raw.page, raw.pageSize⟩ =
          pipeline := by
  simp only [compileRequest_eq, bind_eq_ok_iff, pure_eq_ok_iff, exists_and_left]

end Compiler

/-- The stages of an assembled pipeline: the base predicate, what its parts contribute, and the
window of the page. -/
theorem mem_stages_assemble {base : Document} {request : PipelineRequest} {size : Int64}
    {stage : Stage} :
    stage ∈ (assemble base request size).stages ↔
      stage = .matching base ∨
      (∃ d, filterDocument? request.filter = some d ∧ stage = .matching d) ∨
      (∃ p, request.projection = some p ∧ p.isEmpty = false ∧ stage = .project p.toDocument) ∨
      (∃ g, request.group = some g ∧ stage = .group g.toDocument) ∨
      (∃ s, request.sort = some s ∧ s.isEmpty = false ∧ stage = .sort s.toDocument) ∨
      stage = .skip (Pagination.ofTexts request.page request.pageSize size).skip ∨
      stage = .limit (Pagination.ofTexts request.page request.pageSize size).pageSize := by
  simp only [assemble, List.mem_append, List.mem_cons, List.not_mem_nil, or_false,
    Option.mem_toList, Option.map_map, Option.map_eq_some_iff, Option.filter_eq_some_iff,
    Function.comp_apply, Bool.not_eq_true', and_assoc, or_assoc, eq_comm (b := stage)]

/-- What follows the predicates of an assembled pipeline holds none and does not change with the
filter. -/
theorem exists_stages_assemble_eq (base : Document) (request : PipelineRequest) (size : Int64) :
    ∃ rest, (∀ d, .matching d ∉ rest) ∧ ∀ filter,
      (assemble base { request with filter := filter } size).stages =
        .matching base :: (((filterDocument? filter).map Stage.matching).toList ++ rest) := by
  refine ⟨(assemble base { request with filter := none } size).stages.tail, fun d => ?_,
    fun filter => ?_⟩
  · simp [assemble, filterDocument?]
  · simp [assemble, filterDocument?]

/-- The predicates of an assembled pipeline are the base predicate and the filter's document. -/
theorem matching_mem_stages_assemble {base d : Document} {request : PipelineRequest}
    {size : Int64} :
    .matching d ∈ (assemble base request size).stages ↔
      d = base ∨ filterDocument? request.filter = some d := by
  simp [mem_stages_assemble]

/-- The projection of an assembled pipeline is the document of the request's. -/
theorem project_mem_stages_assemble {base body : Document} {request : PipelineRequest}
    {size : Int64} :
    .project body ∈ (assemble base request size).stages ↔
      ∃ p, request.projection = some p ∧ p.isEmpty = false ∧ body = p.toDocument := by
  simp [mem_stages_assemble]

/-- An assembled pipeline begins with the base predicate. -/
theorem head?_stages_assemble (base : Document) (request : PipelineRequest) (size : Int64) :
    (assemble base request size).stages.head? = some (.matching base) := by
  simp [assemble]

end QueryPipeline
