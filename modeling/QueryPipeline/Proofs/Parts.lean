import Mathlib
import QueryPipeline.Proofs.Assembly

/-!
# Requests part by part

Each part of a request stands for itself. A part is written if its text is there and holds more than
blanks (`Written`), and a written part compiles on its own, with the resolver and the policy of the
compiler, or fails on its own (`Compiler.Fails`). `compileRequest_eq_error_iff` says that a request
fails with the error of the first part that fails, and `compileRequest_by_parts` adds what else the
parts settle: when a request compiles, which texts do not count, of which stages the pipeline
consists and what documents they are.
-/

namespace QueryPipeline

variable {α β γ : Type}

/-! ## Written parts -/

/-- The text of a part that is given and holds more than blanks. -/
def Written (part : Option String) (text : String) : Prop :=
  part = some text ∧ ∃ c ∈ text.toList, Text.isBlankChar c = false

/-- A text holds more than blanks exactly if one of its characters is no blank. -/
theorem isBlank_eq_false_iff {text : String} :
    Text.isBlank text = false ↔ ∃ c ∈ text.toList, Text.isBlankChar c = false := by
  simp [Text.isBlank]

/-- A part has one text. -/
theorem Written.unique {part : Option String} {text text' : String} (h : Written part text)
    (h' : Written part text') : text' = text :=
  Option.some.inj (h'.1.symm.trans h.1)

/-- A part is compiled exactly if it is written. -/
theorem Compiler.nonBlank?_eq_some_iff {part : Option String} {text : String} :
    nonBlank? part = some text ↔ Written part text := by
  simp only [nonBlank?, Option.filter_eq_some_iff, Bool.not_eq_true', isBlank_eq_false_iff, Written]

/-- Two requests that differ in nothing but parts that are not written. -/
structure RawRequest.SameParts (raw raw' : RawRequest) : Prop where
  filter : ∀ text, Written raw.filter text ↔ Written raw'.filter text
  sort : ∀ text, Written raw.sort text ↔ Written raw'.sort text
  aggregation : ∀ text, Written raw.aggregation text ↔ Written raw'.aggregation text
  fields : raw.fields = raw'.fields
  page : raw.page = raw'.page
  pageSize : raw.pageSize = raw'.pageSize

/-- What a part comes to: nothing if it is not written, and otherwise what its text stands for. -/
inductive PartYields (stands : String → α → Prop) (part : Option String) : Option α → Prop
  | nothing (unwritten : ∀ text, ¬ Written part text) : PartYields stands part none
  | some {text : String} {a : α} (written : Written part text) (h : stands text a) :
      PartYields stands part (some a)

/-- A written part comes to the only thing that its text stands for. -/
theorem PartYields.eq_some {stands : String → α → Prop} {part : Option String} {result : Option α}
    {text : String} {a : α} (h : PartYields stands part result) (written : Written part text)
    (only : ∀ b, stands text b → b = a) : result = .some a := by
  cases h with
  | nothing unwritten => exact absurd written (unwritten text)
  | some written' hb =>
    obtain rfl := written.unique written'
    rw [only _ hb]

namespace Compiler

/-- A part that is not compiled comes to nothing, and another to what its text stands for. -/
theorem partYields_iff {stands : String → α → Prop} {part : Option String} {result : Option α} :
    PartYields stands part result ↔
      (nonBlank? part).elim (result = none) fun text => ∃ a, stands text a ∧ result = some a := by
  cases hpart : nonBlank? part with
  | none =>
    have unwritten : ∀ text, ¬ Written part text := by
      intro text written
      rw [nonBlank?_eq_some_iff.2 written] at hpart
      cases hpart
    constructor
    · rintro (_ | ⟨written, -⟩)
      · rfl
      · exact absurd written (unwritten _)
    · rintro rfl
      exact .nothing unwritten
  | some text =>
    have written : Written part text := nonBlank?_eq_some_iff.1 hpart
    constructor
    · rintro (unwritten | ⟨written', h⟩)
      · exact absurd written (unwritten text)
      · obtain rfl := written.unique written'
        exact ⟨_, h, rfl⟩
    · rintro ⟨a, h, rfl⟩
      exact .some written h

/-- A part that need not be there compiles to what it yields. -/
theorem optionally_nonBlank?_eq_ok_iff {compile : String → Except CompileError α}
    {part : Option String} {result : Option α} :
    optionally compile (nonBlank? part) = .ok result ↔
      PartYields (fun text a => compile text = .ok a) part result := by
  rw [partYields_iff]
  cases nonBlank? part with
  | none => simp [optionally, eq_comm]
  | some text => simp only [optionally, map_eq_ok_iff, Option.elim_some, eq_comm (a := some _)]

/-- A part that need not be there fails exactly if it is written and its text fails. -/
theorem optionally_nonBlank?_eq_error_iff {compile : String → Except CompileError α}
    {part : Option String} {e : CompileError} :
    optionally compile (nonBlank? part) = .error e ↔
      ∃ text, Written part text ∧ compile text = .error e := by
  simp only [← nonBlank?_eq_some_iff]
  cases nonBlank? part with
  | none => simp [optionally]
  | some text => simp [optionally, map_eq_error_iff]

/-- The text of a grouping that is blank is passed over where it is compiled. -/
theorem elim_compileAggregation (compiler : Compiler) (part : Option String) :
    part.elim (.ok none) compiler.compileAggregation =
      (nonBlank? part).elim (.ok none) compiler.compileAggregation := by
  cases part with
  | none => rfl
  | some text =>
    cases blank : Text.isBlank text with
    | true => simp [nonBlank?, Option.filter_some, blank, compileAggregation,
        QueryPipeline.compileAggregation]
    | false => simp [nonBlank?, Option.filter_some, blank]

/-- The text of a grouping that is not blank does not come to nothing. -/
theorem compileAggregation_ne_none {compiler : Compiler} {text : String}
    (h : Text.isBlank text = false) : compiler.compileAggregation text ≠ .ok none := by
  simp only [compileAggregation, QueryPipeline.compileAggregation, h, Bool.false_eq_true, if_false,
    Ne, bind_eq_ok_iff, pure_eq_ok_iff, reduceCtorEq, and_false, exists_false, not_false_eq_true]

/-- A grouping that need not be there compiles to what it yields. -/
theorem elim_compileAggregation_eq_ok_iff {compiler : Compiler} {part : Option String}
    {result : Option GroupStage} :
    part.elim (.ok none) compiler.compileAggregation = .ok result ↔
      PartYields (fun text g => compiler.compileAggregation text = .ok (some g)) part result := by
  rw [elim_compileAggregation, partYields_iff]
  cases hpart : nonBlank? part with
  | none => simp [eq_comm]
  | some text =>
    have hsome : compiler.compileAggregation text ≠ .ok none :=
      compileAggregation_ne_none (isBlank_eq_false_iff.2 (nonBlank?_eq_some_iff.1 hpart).2)
    cases result with
    | none => simpa using hsome
    | some g => simp

/-- A grouping that need not be there fails exactly if it is written and its text fails. -/
theorem elim_compileAggregation_eq_error_iff {compiler : Compiler} {part : Option String}
    {e : CompileError} :
    part.elim (.ok none) compiler.compileAggregation = .error e ↔
      ∃ text, Written part text ∧ compiler.compileAggregation text = .error e := by
  rw [elim_compileAggregation]
  simp only [← nonBlank?_eq_some_iff]
  cases nonBlank? part with
  | none => simp
  | some text => simp

/-! ## The first part that fails -/

/-- A part that is written and does not compile on its own. -/
inductive Fails (compiler : Compiler) (raw : RawRequest) : Part → CompileError → Prop
  | filter {text : String} {e : CompileError} (written : Written raw.filter text)
      (h : QueryPipeline.compileFilter compiler.resolver compiler.options.unknown text = .error e) :
      Fails compiler raw .filter e
  | sort {text : String} {e : CompileError} (written : Written raw.sort text)
      (h : QueryPipeline.compileSort compiler.options.unknown text = .error e) :
      Fails compiler raw .sort e
  | aggregation {text : String} {e : CompileError} (written : Written raw.aggregation text)
      (h : QueryPipeline.compileAggregation compiler.options.unknown text = .error e) :
      Fails compiler raw .aggregation e

/-- The parts that are compiled before a part: the filter is the first, the grouping the last. -/
def earlier : Part → List Part
  | .filter | .projection => []
  | .sort => [.filter]
  | .aggregation => [.filter, .sort]

/-- No part that is compiled before the given one fails. -/
def Clear (compiler : Compiler) (raw : RawRequest) (part : Part) : Prop :=
  ∀ p ∈ earlier part, ∀ e, ¬ compiler.Fails raw p e

section
variable {compiler : Compiler} {base : Document} {raw : RawRequest} {e : CompileError}

/-- The filter fails where it is compiled. -/
theorem fails_filter_iff :
    compiler.Fails raw .filter e ↔
      optionally compiler.compileFilter (nonBlank? raw.filter) = .error e := by
  rw [optionally_nonBlank?_eq_error_iff]
  constructor
  · rintro ⟨written, h⟩
    exact ⟨_, written, h⟩
  · rintro ⟨text, written, h⟩
    exact .filter written h

/-- The sort keys fail where they are compiled. -/
theorem fails_sort_iff :
    compiler.Fails raw .sort e ↔
      optionally compiler.compileSort (nonBlank? raw.sort) = .error e := by
  rw [optionally_nonBlank?_eq_error_iff]
  constructor
  · rintro (_ | ⟨written, h⟩)
    exact ⟨_, written, h⟩
  · rintro ⟨text, written, h⟩
    exact .sort written h

/-- The grouping fails where it is compiled. -/
theorem fails_aggregation_iff :
    compiler.Fails raw .aggregation e ↔
      raw.aggregation.elim (.ok none) compiler.compileAggregation = .error e := by
  rw [elim_compileAggregation_eq_error_iff]
  constructor
  · rintro (_ | _ | ⟨written, h⟩)
    exact ⟨_, written, h⟩
  · rintro ⟨text, written, h⟩
    exact .aggregation written h

/-- A request fails with the error of the first part that fails. -/
theorem compileRequest_eq_error_iff :
    compiler.compileRequest base raw = .error e ↔
      ∃ part, compiler.Clear raw part ∧ compiler.Fails raw part e := by
  have hchain : compiler.compileRequest base raw = .error e ↔
      compiler.Fails raw .filter e ∨ (∀ e', ¬ compiler.Fails raw .filter e') ∧
        (compiler.Fails raw .sort e ∨ (∀ e', ¬ compiler.Fails raw .sort e') ∧
          compiler.Fails raw .aggregation e) := by
    simp only [fails_filter_iff, fails_sort_iff, fails_aggregation_iff, ← Ne.eq_def,
      forall_ne_error_iff]
    simp only [compileRequest_eq, bind_eq_error_iff, pure, Except.pure, reduceCtorEq, and_false,
      exists_false, or_false, exists_and_right]
  rw [hchain]
  constructor
  · rintro (h | ⟨hfilter, h | ⟨hsort, h⟩⟩)
    · exact ⟨.filter, by simp [Clear, earlier], h⟩
    · exact ⟨.sort, by simpa [Clear, earlier] using hfilter, h⟩
    · exact ⟨.aggregation, by simpa [Clear, earlier] using ⟨hfilter, hsort⟩, h⟩
  · rintro ⟨part, hclear, h⟩
    cases part with
    | filter => exact .inl h
    | sort => exact .inr ⟨hclear .filter (.head _), .inl h⟩
    | aggregation =>
      exact .inr ⟨hclear .filter (.head _), .inr ⟨hclear .sort (.tail _ (.head _)), h⟩⟩
    | projection => cases h

/-- No part fails exactly if each part that is written compiles on its own. -/
theorem forall_not_fails_iff :
    (∀ part e, ¬ compiler.Fails raw part e) ↔
      (∀ text, Written raw.filter text → ∃ filter,
        QueryPipeline.compileFilter compiler.resolver compiler.options.unknown text = .ok filter) ∧
      (∀ text, Written raw.sort text → ∃ sort,
        QueryPipeline.compileSort compiler.options.unknown text = .ok sort) ∧
      ∀ text, Written raw.aggregation text → ∃ group,
        QueryPipeline.compileAggregation compiler.options.unknown text = .ok (some group) := by
  simp only [← forall_ne_error_iff]
  constructor
  · intro h
    refine ⟨fun text written e he => h _ e (.filter written he),
      fun text written e he => h _ e (.sort written he), fun text written => ?_⟩
    obtain ⟨group, hgroup⟩ := forall_ne_error_iff.1 fun e he => h _ e (.aggregation written he)
    cases group with
    | none => exact absurd hgroup (compileAggregation_ne_none (isBlank_eq_false_iff.2 written.2))
    | some group => exact ⟨group, hgroup⟩
  · rintro ⟨hfilter, hsort, hgroup⟩ part e fails
    cases fails with
    | filter written h => exact hfilter _ written e h
    | sort written h => exact hsort _ written e h
    | aggregation written h =>
      obtain ⟨group, hok⟩ := hgroup _ written
      rw [hok] at h
      cases h

/-- A request compiles exactly if no part of it fails. -/
theorem exists_compileRequest_eq_ok_iff :
    (∃ pipeline, compiler.compileRequest base raw = .ok pipeline) ↔
      ∀ part e, ¬ compiler.Fails raw part e := by
  rw [← forall_ne_error_iff]
  constructor
  · intro h
    -- The first failure would be the failure of the request, so the parts are taken in their order.
    have none_fails : ∀ part, compiler.Clear raw part → ∀ e, ¬ compiler.Fails raw part e :=
      fun part clear e fails => h e (compileRequest_eq_error_iff.2 ⟨part, clear, fails⟩)
    have hfilter := none_fails .filter (by simp [Clear, earlier])
    have hsort := none_fails .sort (by simpa [Clear, earlier] using hfilter)
    have hgroup := none_fails .aggregation (by simpa [Clear, earlier] using ⟨hfilter, hsort⟩)
    intro part e fails
    cases part with
    | filter => exact hfilter e fails
    | sort => exact hsort e fails
    | aggregation => exact hgroup e fails
    | projection => cases fails
  · intro h e he
    obtain ⟨part, -, fails⟩ := compileRequest_eq_error_iff.1 he
    exact h part e fails

/-- Parts that are not written do not count. -/
theorem compileRequest_congr {raw' : RawRequest} (same : raw.SameParts raw') :
    compiler.compileRequest base raw = compiler.compileRequest base raw' := by
  have nonBlank?_congr {part part' : Option String}
      (h : ∀ text, Written part text ↔ Written part' text) :
      nonBlank? part = nonBlank? part' := by
    ext text
    rw [nonBlank?_eq_some_iff, nonBlank?_eq_some_iff, h]
  have hgroup : raw.aggregation.elim (.ok none) compiler.compileAggregation =
      raw'.aggregation.elim (.ok none) compiler.compileAggregation := by
    rw [elim_compileAggregation _ raw.aggregation, elim_compileAggregation _ raw'.aggregation,
      nonBlank?_congr same.aggregation]
  rw [compileRequest_eq, compileRequest_eq, hgroup, nonBlank?_congr same.filter,
    nonBlank?_congr same.sort, same.fields, same.page, same.pageSize]

end

end Compiler

/-! ## The stages of a pipeline -/

/-- What a part adds to a pipeline: one stage if the part is there and counts, and else none. -/
inductive Adds (counts : α → Prop) (stage : α → β) : Option α → List β → Prop
  | one {a : α} (h : counts a) : Adds counts stage (some a) [stage a]
  | none {part : Option α} (h : ∀ a, part = some a → ¬ counts a) : Adds counts stage part []

/-- A part that counts adds its stage. -/
theorem Adds.eq_singleton {counts : α → Prop} {stage : α → β} {a : α} {stages : List β}
    (h : Adds counts stage (some a) stages) (ha : counts a) : stages = [stage a] := by
  cases h with
  | one => rfl
  | none h => exact absurd ha (h a rfl)

/-- What is made of the stages of a part is added where they are. -/
theorem Adds.map {counts : α → Prop} {stage : α → β} {part : Option α} {stages : List β}
    (h : Adds counts stage part stages) (f : β → γ) :
    Adds counts (fun a => f (stage a)) part (stages.map f) := by
  cases h with
  | one h => exact .one h
  | none h => exact .none h

/-- A part that is dropped where it does not count adds its stage where it does. -/
theorem adds_toList {counts : α → Prop} {stage : α → β} {p : α → Bool}
    (h : ∀ a, p a = true ↔ counts a) (part : Option α) :
    Adds counts stage part ((part.filter p).map stage).toList := by
  cases part with
  | none => exact .none fun a ha => by cases ha
  | some a =>
    cases hp : p a with
    | true =>
      rw [Option.filter_some_pos hp]
      exact .one ((h a).1 hp)
    | false =>
      rw [Option.filter_some_neg (by simp [hp])]
      refine .none fun b hb counted => ?_
      cases hb
      rw [(h a).2 counted] at hp
      cases hp

/-- An assembled pipeline has the stages that its parts add, between the base predicate and the
window of the page. -/
theorem stages_assemble (base : Document) (request : PipelineRequest) (size : Int64) :
    ∃ client project group sort : List Stage,
      Adds (fun f => ∃ d ∈ f.entries, d ≠ []) (fun f => .matching f.toDocument)
        request.filter client ∧
      Adds (fun p => p.fields ≠ []) (fun p => .project p.toDocument) request.projection project ∧
      Adds (fun _ => True) (fun g => .group g.toDocument) request.group group ∧
      Adds (fun s => s.keys ≠ []) (fun s => .sort s.toDocument) request.sort sort ∧
      (assemble base request size).stages =
        .matching base :: (client ++ (project ++ (group ++ (sort ++
          [.skip (Pagination.ofTexts request.page request.pageSize size).skip,
            .limit (Pagination.ofTexts request.page request.pageSize size).pageSize])))) := by
  have hclient (f : Filter) : (!f.isEmpty) = true ↔ ∃ d ∈ f.entries, d ≠ [] := by
    simp [Filter.isEmpty]
  have hproject (p : Projection) : (!p.isEmpty) = true ↔ p.fields ≠ [] := by
    simp [Projection.isEmpty]
  have hsort (s : SortStage) : (!s.isEmpty) = true ↔ s.keys ≠ [] := by
    simp [SortStage.isEmpty]
  -- A group stage counts whatever it holds, so nothing is dropped.
  have hgroup : request.group.filter (fun _ => true) = request.group := by
    cases request.group <;> rfl
  refine ⟨_, _, _, _, adds_toList hclient _, adds_toList hproject _,
    adds_toList (p := fun _ => true) (by simp) _, adds_toList hsort _, ?_⟩
  simp [assemble, filterDocument?, hgroup, Option.map_map, Function.comp_def]

/-- The documents of a pipeline, from the stages that its parts add. -/
theorem CompiledPipeline.toDocuments_of_stages {pipeline : CompiledPipeline} {base : Document}
    {client project grouped sorted : List Stage} {skip limit : Int64}
    (h : pipeline.stages = .matching base ::
      (client ++ (project ++ (grouped ++ (sorted ++ [.skip skip, .limit limit]))))) :
    pipeline.toDocuments = [("$match", .document base)] ::
      (client.map Stage.toDocument ++ (project.map Stage.toDocument ++
        (grouped.map Stage.toDocument ++ (sorted.map Stage.toDocument ++
          [[("$skip", .int64 skip)], [("$limit", .int64 limit)]])))) := by
  simp only [toDocuments, h, List.map_cons, List.map_append, List.map_nil]
  rfl

/-- A request is compiled part by part. Parts that are not written do not count; the request
compiles exactly if each of the others compiles on its own, and fails with the error of the first
that does not. The pipeline consists of the base predicate, of a stage for each part that counts
(a filter with an entry that constrains, a projection of some field, a grouping, some sort key) and
of the window of the page. Each stage is a document of one entry, which has the name of the stage as
its key and holds the document of the part or a number of the window. -/
theorem compileRequest_by_parts (compiler : Compiler) (base : Document) (raw : RawRequest) :
    (∀ raw', raw.SameParts raw' →
      compiler.compileRequest base raw = compiler.compileRequest base raw') ∧
    ((∃ pipeline, compiler.compileRequest base raw = .ok pipeline) ↔
      (∀ text, Written raw.filter text → ∃ filter,
        compileFilter compiler.resolver compiler.options.unknown text = .ok filter) ∧
      (∀ text, Written raw.sort text → ∃ sort,
        compileSort compiler.options.unknown text = .ok sort) ∧
      ∀ text, Written raw.aggregation text → ∃ group,
        compileAggregation compiler.options.unknown text = .ok (some group)) ∧
    (∀ e, compiler.compileRequest base raw = .error e ↔
      ∃ part, compiler.Clear raw part ∧ compiler.Fails raw part e) ∧
    ∀ pipeline, compiler.compileRequest base raw = .ok pipeline →
      let window := Pagination.ofTexts raw.page raw.pageSize compiler.options.defaultPageSize
      ∃ (filter : Option Filter) (sort : Option SortStage) (group : Option GroupStage),
        PartYields (fun text f =>
          compileFilter compiler.resolver compiler.options.unknown text = .ok f)
          raw.filter filter ∧
        PartYields (fun text s => compileSort compiler.options.unknown text = .ok s)
          raw.sort sort ∧
        PartYields (fun text g => compileAggregation compiler.options.unknown text = .ok (some g))
          raw.aggregation group ∧
        (∃ client project grouped sorted : List Stage,
          Adds (fun f => ∃ d ∈ f.entries, d ≠ []) (fun f => .matching f.toDocument) filter client ∧
          Adds (fun p => p.fields ≠ []) (fun p => .project p.toDocument) raw.fields project ∧
          Adds (fun _ => True) (fun g => .group g.toDocument) group grouped ∧
          Adds (fun s => s.keys ≠ []) (fun s => .sort s.toDocument) sort sorted ∧
          pipeline.stages = .matching base :: (client ++ (project ++ (grouped ++ (sorted ++
            [.skip window.skip, .limit window.pageSize]))))) ∧
        ∃ client project grouped sorted : List Document,
          Adds (fun f => ∃ d ∈ f.entries, d ≠ []) (fun f => [("$match", .document f.toDocument)])
            filter client ∧
          Adds (fun p => p.fields ≠ []) (fun p => [("$project", .document p.toDocument)])
            raw.fields project ∧
          Adds (fun _ => True) (fun g => [("$group", .document g.toDocument)]) group grouped ∧
          Adds (fun s => s.keys ≠ []) (fun s => [("$sort", .document s.toDocument)]) sort sorted ∧
          pipeline.toDocuments = [("$match", .document base)] ::
            (client ++ (project ++ (grouped ++ (sorted ++
              [[("$skip", .int64 window.skip)], [("$limit", .int64 window.pageSize)]])))) := by
  refine ⟨fun raw' same => Compiler.compileRequest_congr same, ?_,
    fun e => Compiler.compileRequest_eq_error_iff, ?_⟩
  · rw [Compiler.exists_compileRequest_eq_ok_iff, Compiler.forall_not_fails_iff]
  · intro pipeline h
    obtain ⟨filter, sort, group, hfilter, hsort, hgroup, rfl⟩ :=
      Compiler.compileRequest_eq_ok_iff.1 h
    obtain ⟨client, project, grouped, sorted, hclient, hproject, hgrouped, hsorted, hstages⟩ :=
      stages_assemble base ⟨filter, raw.fields, group, sort, raw.page, raw.pageSize⟩
        compiler.options.defaultPageSize
    exact ⟨filter, sort, group, Compiler.optionally_nonBlank?_eq_ok_iff.1 hfilter,
      Compiler.optionally_nonBlank?_eq_ok_iff.1 hsort,
      Compiler.elim_compileAggregation_eq_ok_iff.1 hgroup,
      ⟨client, project, grouped, sorted, hclient, hproject, hgrouped, hsorted, hstages⟩,
      _, _, _, _, hclient.map Stage.toDocument, hproject.map Stage.toDocument,
      hgrouped.map Stage.toDocument, hsorted.map Stage.toDocument,
      CompiledPipeline.toDocuments_of_stages hstages⟩

/-- A request with every part, written out; a request with sort keys of blanks only; and a request
whose three parts all fail. -/
theorem compileRequest_by_parts_full_and_failing :
    let compiler : Compiler := ⟨.noop, .default⟩
    let base : Document := [("b", .null)]
    let filter := "[\x7b\"label\":\"a\",\"operation\":\">\",\"condition\":\"x\"\x7d]"
    let sort := "[\x7b\"db_name\":\"n\",\"type\":\"des\"\x7d]"
    let group := "\x7b\"group_by\":\"g\"\x7d"
    let fields : Projection := ⟨[("f", true)]⟩
    let full : RawRequest := ⟨some filter, some sort, some group, some fields, some "3", some "20"⟩
    let sparse : RawRequest := ⟨some "[\x7b\x7d]", some " \u00a0", none, none, none, none⟩
    let failing : RawRequest := ⟨some "[]", some "?", some "?", none, none, none⟩
    (∃ pipeline, compiler.compileRequest base full = .ok pipeline ∧
      pipeline.toDocuments = [[("$match", .document base)],
        [("$match", .document [("a", .document [("$gt", .string "x")])])],
        [("$project", .document [("f", .int32 1)])],
        [("$group", .document [("_id", .string "$g")])],
        [("$sort", .document [("n", .int32 (-1))])],
        [("$skip", .int64 40)], [("$limit", .int64 20)]]) ∧
      compiler.compileRequest base sparse =
        compiler.compileRequest base ⟨some "[\x7b\x7d]", none, none, none, none, none⟩ ∧
      compiler.Fails failing .sort (.unreadable .sort (.fault .malformed)) ∧
      compiler.compileRequest [] failing = .error .emptyFilter := by
  intro compiler base filter sort group fields full sparse failing
  have filtered : compileFilter compiler.resolver compiler.options.unknown filter =
      .ok ⟨[[("a", .document [("$gt", .string "x")])]]⟩ := by cbv
  have sortedBy : compileSort compiler.options.unknown sort = .ok ⟨[("n", .descending)]⟩ := by cbv
  have written {text : String} (h : Text.isBlank text = false) : Written (some text) text :=
    ⟨rfl, isBlank_eq_false_iff.1 h⟩
  have hfilter : Written full.filter filter := written (by decide)
  have hsort : Written full.sort sort := written (by decide)
  have hgroup : Written full.aggregation group := written (by decide)
  have groupedBy : compileAggregation compiler.options.unknown group =
      .ok (some ⟨"g", none, []⟩) := by
    have hblank : Text.isBlank group = false := by decide
    have hspec : Json.parse AggregationSpec.read group = .ok ⟨"g", none, []⟩ := by cbv
    rw [compileAggregation, hblank, hspec]
    rfl
  have hwindow : Pagination.ofTexts full.page full.pageSize compiler.options.defaultPageSize =
      ⟨3, 20⟩ := by decide
  refine ⟨?_, ?_, ?_, ?_⟩
  · obtain ⟨-, hcompiles, -, hstages⟩ := compileRequest_by_parts compiler base full
    obtain ⟨pipeline, hok⟩ := hcompiles.2 ⟨fun _ h => ⟨_, hfilter.unique h ▸ filtered⟩,
      fun _ h => ⟨_, hsort.unique h ▸ sortedBy⟩, fun _ h => ⟨_, hgroup.unique h ▸ groupedBy⟩⟩
    obtain ⟨_, _, _, hf, hs, hg, -, _, _, _, _, hclient, hproject, hgrouped, hsorted, hdocuments⟩ :=
      hstages pipeline hok
    cases hf.eq_some hfilter fun b hb => Except.ok.inj (hb.symm.trans filtered)
    cases hs.eq_some hsort fun b hb => Except.ok.inj (hb.symm.trans sortedBy)
    cases hg.eq_some hgroup fun b hb => Option.some.inj (Except.ok.inj (hb.symm.trans groupedBy))
    cases hclient.eq_singleton ⟨_, .head _, List.cons_ne_nil _ _⟩
    cases hproject.eq_singleton (List.cons_ne_nil _ _)
    cases hgrouped.eq_singleton trivial
    cases hsorted.eq_singleton (List.cons_ne_nil _ _)
    refine ⟨pipeline, hok, hdocuments.trans ?_⟩
    rw [hwindow]
    rfl
  · refine (compileRequest_by_parts compiler base sparse).1 _
      ⟨fun _ => .rfl, fun text => ⟨?_, fun h => by cases h.1⟩, fun _ => .rfl, rfl, rfl, rfl⟩
    rintro ⟨⟨⟩, h⟩
    have hblank : Text.isBlank " \u00a0" = true := by decide
    rw [isBlank_eq_false_iff.2 h] at hblank
    cases hblank
  · exact .sort (written (by decide)) (by cbv)
  · have clear : compiler.Clear failing .filter := fun _ h => absurd h List.not_mem_nil
    exact ((compileRequest_by_parts compiler [] failing).2.2.1 _).2
      ⟨.filter, clear, .filter (written (by decide)) (by cbv)⟩

end QueryPipeline
