import QueryPipeline.Filter.Basic
import QueryPipeline.Group
import QueryPipeline.Pagination
import QueryPipeline.Projection
import QueryPipeline.Sort

/-!
# Pipelines

A pipeline is a list of stages. `assemble` puts the stages of a request into their fixed order: the
base predicate, the filter, the projection, the group stage, the sort stage, and the window of the
page. A part that is absent or constrains nothing has no stage, a group stage apart. The count
document selects the same records as the predicates of the pipeline.
-/

namespace QueryPipeline

/-- A stage of a pipeline. -/
inductive Stage where
  | matching (body : Document)
  | project (body : Document)
  | group (body : Document)
  | sort (body : Document)
  | skip (n : Int64)
  | limit (n : Int64)

namespace Stage

/-- The name of a stage in the store. -/
def name : Stage → String
  | .matching _ => "$match"
  | .project _ => "$project"
  | .group _ => "$group"
  | .sort _ => "$sort"
  | .skip _ => "$skip"
  | .limit _ => "$limit"

/-- What a stage holds. -/
def body : Stage → Value
  | .matching d | .project d | .group d | .sort d => .document d
  | .skip n | .limit n => .int64 n

/-- The stage as a document of one entry. -/
def toDocument (stage : Stage) : Document :=
  Document.single stage.name stage.body

end Stage

/-- The compiled parts of a request. -/
structure PipelineRequest where
  filter : Option Filter
  projection : Option Projection
  group : Option GroupStage
  sort : Option SortStage
  page : Option String
  pageSize : Option String

/-- The request without parts. -/
def PipelineRequest.empty : PipelineRequest := ⟨none, none, none, none, none, none⟩

/-- A pipeline, and the predicate of a query for the number of records. -/
structure CompiledPipeline where
  stages : List Stage
  count : Document

namespace CompiledPipeline

/-- The stages, each as a document. -/
def toDocuments (pipeline : CompiledPipeline) : List Document :=
  pipeline.stages.map Stage.toDocument

end CompiledPipeline

/-- The document of a filter that constrains something. -/
def filterDocument? (filter : Option Filter) : Option Document :=
  (filter.filter fun f => !f.isEmpty).map Filter.toDocument

/-- The predicate that counts the records of a base predicate and a filter. -/
def countDocument (base : Document) (filter : Option Document) : Document :=
  match filter with
  | some d => Filter.conjunction [base, d]
  | none => base

/-- Puts the stages of a request into their order. -/
def assemble (base : Document) (request : PipelineRequest) (defaultPageSize : Int64) :
    CompiledPipeline :=
  let pagination := Pagination.ofTexts request.page request.pageSize defaultPageSize
  let filter := filterDocument? request.filter
  let project := (request.projection.filter fun p => !p.isEmpty).map Projection.toDocument
  let sort := (request.sort.filter fun s => !s.isEmpty).map SortStage.toDocument
  { stages :=
      [.matching base] ++ (filter.map Stage.matching).toList ++ (project.map Stage.project).toList ++
        (request.group.map fun g => Stage.group g.toDocument).toList ++
        (sort.map Stage.sort).toList ++ [.skip pagination.skip, .limit pagination.pageSize]
    count := countDocument base filter }

end QueryPipeline
