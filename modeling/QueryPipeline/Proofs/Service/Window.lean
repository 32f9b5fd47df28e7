import QueryPipeline.Proofs.Assembly
import QueryPipeline.Proofs.Pagination
import QueryPipeline.Service.Settings

/-!
# The window of the service's pipelines

A store refuses a negative number of records to skip and a limit that is not positive. A compiler
takes any default page size; it is the settings of the service that are read to a positive one
(`Settings.defaultPageSize_pos`), so every pipeline of the service ends with a window that the store
takes (`Settings.compileRequest_window`).
-/

namespace QueryPipeline

/-! ## The last stages of a pipeline -/

/-- An assembled pipeline ends with the window of the page and has no other stage of its kinds. -/
theorem exists_stages_assemble_eq_window (base : Document) (request : PipelineRequest)
    (size : Int64) :
    ∃ rest, (∀ n, .skip n ∉ rest ∧ .limit n ∉ rest) ∧
      (assemble base request size).stages = rest ++
        [.skip (Pagination.ofTexts request.page request.pageSize size).skip,
          .limit (Pagination.ofTexts request.page request.pageSize size).pageSize] := by
  refine ⟨_, fun n => ?_, rfl⟩
  simp only [List.mem_append, List.mem_singleton, Option.mem_toList, Option.map_eq_some_iff,
    reduceCtorEq, and_false, exists_false, or_false, not_false_eq_true, and_self]

/-! ## Settings -/

namespace Settings

/-- The page size of a variable is positive. -/
theorem pageSize_pos (text : Option String) : 0 < (pageSize text).toInt := by
  unfold pageSize
  cases h : (text.bind fun t => Text.int64? t.toList).filter fun n => decide (0 < n) with
  | some n =>
    have hn : (0 : Int64) < n := of_decide_eq_true (Option.filter_eq_some_iff.1 h).2
    exact Int64.lt_iff_toInt_lt.1 hn
  | none => decide

/-- Every settings that variables give have a positive page size. -/
theorem defaultPageSize_pos {lookup : String → Option String} {settings : Settings}
    (configured : ofLookup lookup = .ok settings) :
    0 < settings.options.defaultPageSize.toInt := by
  obtain ⟨functions, -, h⟩ := bind_eq_ok_iff.1 configured
  cases pure_eq_ok_iff.1 h
  exact pageSize_pos _

/-- Every pipeline of the service ends with one stage that skips records and one that limits them,
in this order and with numbers that a store takes, whatever the texts of the page and its size are.
Of the steps on the way the difference never overflows and the product is bounded. -/
theorem compileRequest_window {lookup : String → Option String} {settings : Settings}
    (configured : ofLookup lookup = .ok settings) {base : Document} {raw : RawRequest}
    {pipeline : CompiledPipeline}
    (compiled : settings.compiler.compileRequest base raw = .ok pipeline) :
    let p := Pagination.ofTexts raw.page raw.pageSize settings.options.defaultPageSize
    (∃ rest, pipeline.stages = rest ++ [.skip p.skip, .limit p.pageSize] ∧
      ∀ k, .skip k ∉ rest ∧ .limit k ∉ rest) ∧
    (0 ≤ p.skip.toInt ∧ p.skip.toInt ≤ 2 ^ 63 - 1) ∧
    (1 ≤ p.pageSize.toInt ∧ p.pageSize.toInt ≤ 2 ^ 63 - 1) ∧
    (p.page - 1).toInt = p.page.toInt - 1 ∧
    p.skip.toInt = min (max 0 (p.page.toInt - 1) * p.pageSize.toInt) (2 ^ 63 - 1) := by
  intro p
  obtain ⟨filter, sort, group, -, -, -, rfl⟩ := Compiler.compileRequest_eq_ok_iff.1 compiled
  obtain ⟨rest, hrest, hstages⟩ := exists_stages_assemble_eq_window base
    ⟨filter, raw.fields, group, sort, raw.page, raw.pageSize⟩ settings.options.defaultPageSize
  have hpage : 0 ≤ p.page.toInt := Pagination.page_ofTexts_nonneg ..
  have hsize : 0 < p.pageSize.toInt :=
    Pagination.pageSize_ofTexts_pos _ _ (defaultPageSize_pos configured)
  have hskip := p.skip.toInt_lt
  have hlimit := p.pageSize.toInt_lt
  exact ⟨⟨rest, hstages, hrest⟩,
    ⟨(Pagination.skip_mono hsize hpage (Int.le_refl _)).1, by omega⟩, ⟨hsize, by omega⟩,
    Pagination.toInt_sub_one hpage, Pagination.toInt_skip_of_pos hpage hsize⟩

/-- A default page size that does not count, and a page so late that the product is bounded. -/
theorem compileRequest_window_late_page :
    let lookup : String → Option String := fun name =>
      if name = "SIFT_DEFAULT_PAGE_SIZE" then some "-3" else none
    let settings : Settings := ⟨Settings.defaultAddress, .default, []⟩
    let raw : RawRequest := ⟨none, none, none, none, some "9223372036854775807", some "0"⟩
    let pipeline : CompiledPipeline :=
      ⟨[.matching [], .skip 9223372036854775807, .limit 10], []⟩
    ofLookup lookup = .ok settings ∧
      settings.compiler.compileRequest [] raw = .ok pipeline ∧
      ∃ rest n m, pipeline.stages = rest ++ [.skip n, .limit m] ∧
        (∀ k, .skip k ∉ rest ∧ .limit k ∉ rest) ∧ 0 ≤ n.toInt ∧ 1 ≤ m.toInt := by
  intro lookup settings raw pipeline
  have size : pageSize (lookup "SIFT_DEFAULT_PAGE_SIZE") = 10 := by decide +kernel
  have configured : ofLookup lookup = .ok settings := by
    rw [ofLookup, size]
    rfl
  have window : Pagination.ofTexts raw.page raw.pageSize 10 = ⟨9223372036854775807, 10⟩ := by
    decide +kernel
  have skipped : (⟨9223372036854775807, 10⟩ : Pagination).skip = 9223372036854775807 := by decide
  have assembled : settings.compiler.compileRequest [] raw =
      .ok ⟨[.matching [], .skip (Pagination.ofTexts raw.page raw.pageSize 10).skip,
        .limit (Pagination.ofTexts raw.page raw.pageSize 10).pageSize], []⟩ := rfl
  have compiled : settings.compiler.compileRequest [] raw = .ok pipeline := by
    rw [assembled, window, skipped]
  obtain ⟨⟨rest, hstages, hrest⟩, hskip, hlimit, -⟩ := compileRequest_window configured compiled
  exact ⟨configured, compiled, rest, _, _, hstages, hrest, hskip.1, hlimit.1⟩

end Settings

end QueryPipeline
