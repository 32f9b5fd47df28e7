import QueryPipeline.Proofs.Filter.Fault
import QueryPipeline.Proofs.Group.Spec
import QueryPipeline.Proofs.Selection
import QueryPipeline.Proofs.Sort

/-!
# Entries that a lenient compiler passes over

Entries of unknown names may be put into a client's list at any places (`Inserted`) without a trace,
where the compiler is lenient. A fold passes over them, so sort keys and outputs come to the same
stage. In a filter each of them leaves an entry that admits everything, and a filter is settled by
the entries that constrain (`Filter.alike_of_constraining_eq`). `compile_lenient_of_inserted` says
so of the three lists.
-/

namespace QueryPipeline

open Json

universe u

variable {ε α β : Type}

/-! ## Insertion -/

/-- A list and the list with further elements put in at any places. -/
inductive Inserted (P : α → Prop) : List α → List α → Prop
  | nil : Inserted P [] []
  | keep {xs ys : List α} (x : α) (rest : Inserted P xs ys) : Inserted P (x :: xs) (x :: ys)
  | insert {xs ys : List α} {y : α} (new : P y) (rest : Inserted P xs ys) : Inserted P xs (y :: ys)

namespace Inserted

variable {P : α → Prop} {xs ys : List α}

/-- A fold whose steps pass over the new elements comes to the same. -/
theorem foldlM_eq (h : Inserted P xs ys) {f : β → α → Except ε β}
    (passed : ∀ b y, P y → f b y = .ok b) (b : β) : ys.foldlM f b = xs.foldlM f b := by
  induction h generalizing b with
  | nil => rfl
  | keep x _ ih =>
    rw [List.foldlM_cons, List.foldlM_cons]
    congr 1
    funext b'
    exact ih b'
  | @insert xs ys y new _ ih =>
    have hcons : (y :: ys).foldlM f b = ys.foldlM f b := by
      rw [List.foldlM_cons, passed b y new]
      rfl
    rw [hcons, ih b]

/-- What drops the new elements leaves the same elements. -/
theorem filter_eq (h : Inserted P xs ys) {p : α → Bool} (drop : ∀ y, P y → p y = false) :
    ys.filter p = xs.filter p := by
  induction h with
  | nil => rfl
  | keep x _ ih => rw [List.filter_cons, List.filter_cons, ih]
  | insert new _ ih => rw [List.filter_cons_of_neg (by simp [drop _ new]), ih]

/-- A list that is not mapped fails the same with the new elements, where they are mapped. -/
theorem mapM_eq_error (h : Inserted P xs ys) {f : α → Except ε β} {z : β}
    (maps : ∀ y, P y → f y = .ok z) {e : ε} (failed : xs.mapM f = .error e) :
    ys.mapM f = .error e := by
  induction h with
  | nil => exact failed
  | keep x _ ih =>
    rw [List.mapM_cons, bind_eq_error_iff] at failed ⊢
    rcases failed with hx | ⟨b, hb, failed⟩
    · exact .inl hx
    · simp only [bind_eq_error_iff, pure, Except.pure, reduceCtorEq, and_false, exists_false,
        or_false] at failed ⊢
      exact .inr ⟨b, hb, ih failed⟩
  | insert new _ ih =>
    rw [List.mapM_cons, maps _ new]
    exact bind_eq_error_iff.2 (.inr ⟨z, rfl, bind_eq_error_iff.2 (.inl (ih failed))⟩)

/-- The new elements put in what they are mapped to. -/
theorem mapM_eq_ok (h : Inserted P xs ys) {f : α → Except ε β} {z : β}
    (maps : ∀ y, P y → f y = .ok z) {bs : List β} (mapped : xs.mapM f = .ok bs) :
    ∃ cs, ys.mapM f = .ok cs ∧ Inserted (· = z) bs cs := by
  induction h generalizing bs with
  | nil =>
    cases mapped
    exact ⟨[], rfl, .nil⟩
  | keep x _ ih =>
    rw [mapM_eq_ok_iff, List.forall₂_cons_left_iff] at mapped
    obtain ⟨b, rest, hb, hrest, rfl⟩ := mapped
    obtain ⟨cs, hcs, inserted⟩ := ih (mapM_eq_ok_iff.2 hrest)
    exact ⟨b :: cs, mapM_eq_ok_iff.2 (.cons hb (mapM_eq_ok_iff.1 hcs)), .keep b inserted⟩
  | insert new _ ih =>
    obtain ⟨cs, hcs, inserted⟩ := ih mapped
    exact ⟨z :: cs, mapM_eq_ok_iff.2 (.cons (maps _ new) (mapM_eq_ok_iff.1 hcs)),
      .insert rfl inserted⟩

end Inserted

/-! ## Filters that constrain alike -/

/-- The entries of a filter that constrain. -/
def Filter.constraining (filter : Filter) : List Document :=
  filter.entries.filter fun d => !d.isEmpty

/-- A filter is empty exactly if no entry constrains. -/
theorem Filter.isEmpty_eq (filter : Filter) : filter.isEmpty = filter.constraining.isEmpty := by
  rw [Bool.eq_iff_iff, List.isEmpty_iff]
  simp [isEmpty, constraining]

section
variable {Record : Type u} (store : Evaluator Record)

/-- Every entry selects a record exactly if every entry that constrains does. -/
theorem Evaluator.selects_constraining_iff {filter : Filter} {record : Record} :
    (∀ d ∈ filter.constraining, store.Selects d record) ↔
      ∀ d ∈ filter.entries, store.Selects d record := by
  constructor
  · intro constrain d hd
    cases hempty : d.isEmpty with
    | true =>
      rw [List.isEmpty_iff.1 hempty]
      exact store.selects_empty record
    | false => exact constrain d (List.mem_filter.2 ⟨hd, by simp [hempty]⟩)
  · intro all d hd
    exact all d (List.mem_filter.1 hd).1

/-- Two filters that no pipeline tells apart but by the document of the client's predicate: both or
neither add it, it selects the same records, and so does the count document. -/
structure Filter.Alike (filter filter' : Filter) : Prop where
  constraining : filter'.constraining = filter.constraining
  isEmpty : filter'.isEmpty = filter.isEmpty
  stages : ∀ base (request : PipelineRequest) size, ∃ client client' rest,
    (assemble base { request with filter := some filter } size).stages =
      .matching base :: (client ++ rest) ∧
    (assemble base { request with filter := some filter' } size).stages =
      .matching base :: (client' ++ rest) ∧
    (∀ d, .matching d ∉ rest) ∧
    ((client = [] ∧ client' = []) ∨ ∃ d d', client = [.matching d] ∧ client' = [.matching d'] ∧
      ∀ record, store.Selects d' record ↔ store.Selects d record)
  count : ∀ base (request : PipelineRequest) size record,
    store.Selects (assemble base { request with filter := some filter' } size).count record ↔
      store.Selects (assemble base { request with filter := some filter } size).count record

/-- Filters are alike if the entries that constrain are the same. -/
theorem Filter.alike_of_constraining_eq {filter filter' : Filter}
    (h : filter'.constraining = filter.constraining) : filter.Alike store filter' := by
  have hempty : filter'.isEmpty = filter.isEmpty := by
    rw [isEmpty_eq, isEmpty_eq, h]
  have selects_iff (f : Filter) (record : Record) :
      (∀ d, filterDocument? (some f) = some d → store.Selects d record) ↔
        ∀ d ∈ f.constraining, store.Selects d record :=
    (store.selects_filterDocument?_iff (some f) record).trans
      store.selects_constraining_iff.symm
  have selects (record : Record) :
      (∀ d, filterDocument? (some filter') = some d → store.Selects d record) ↔
        ∀ d, filterDocument? (some filter) = some d → store.Selects d record := by
    rw [selects_iff, selects_iff, h]
  refine ⟨h, hempty, fun base request size => ?_, fun base request size record => ?_⟩
  · obtain ⟨rest, free, hstages⟩ := exists_stages_assemble_eq base request size
    refine ⟨_, _, rest, hstages _, hstages _, free, ?_⟩
    cases hfilter : filter.isEmpty with
    | true =>
      left
      simp [filterDocument?, hempty, hfilter]
    | false =>
      right
      refine ⟨filter.toDocument, filter'.toDocument, ?_, ?_, fun record => ?_⟩
      · simp [filterDocument?, hfilter]
      · simp [filterDocument?, hempty, hfilter]
      · simpa [filterDocument?, hempty, hfilter] using selects record
  · have hcount (f : Filter) :
        store.Selects (assemble base { request with filter := some f } size).count record ↔
          store.Selects base record ∧
            ∀ d, filterDocument? (some f) = some d → store.Selects d record :=
      store.selects_countDocument_iff base _
    rw [hcount, hcount, selects]

end

/-! ## Unknown entries -/

/-- A lenient compiler passes over a sort key of an unknown direction. -/
theorem SortStage.add_ignore_of_unknown {stage : SortStage} {spec : SortSpec}
    (h : spec.direction ∉ SortDirection.known) : stage.add .ignore spec = .ok stage := by
  simp [add, SortDirection.ofName?_eq_none_iff.2 h]

/-- Sort keys of unknown directions leave no trace. -/
theorem compileSortSpecs_ignore_of_inserted {specs specs' : List SortSpec}
    (h : Inserted (fun spec => spec.direction ∉ SortDirection.known) specs specs') :
    compileSortSpecs .ignore specs' = compileSortSpecs .ignore specs :=
  h.foldlM_eq (fun _ _ => SortStage.add_ignore_of_unknown) _

/-- Outputs of unknown accumulators leave no trace. -/
theorem AggregationSpec.compile_ignore_of_inserted {spec : AggregationSpec}
    {outputs : List AggregatorSpec}
    (h : Inserted (fun output => ¬ output.IsKnown) spec.aggregators outputs) :
    { spec with aggregators := outputs }.compile .ignore = spec.compile .ignore := by
  have passed (stage : GroupStage) (output : AggregatorSpec) (unknown : ¬ output.IsKnown) :
      stage.add .ignore output = .ok stage := by
    obtain ⟨name, hname⟩ := AggregatorSpec.not_isKnown_iff.1 unknown
    exact GroupStage.add_ignore_of_unknown hname
  rw [compile_eq, compile_eq, h.foldlM_eq passed]
  rfl

/-- A lenient compiler that refuses conditions refuses them for the same reason where there are
further conditions of unknown operators, unless it refuses them for being none. -/
theorem compileConditions_ignore_of_inserted_eq_error {resolver : Resolver}
    {conditions conditions' : List Condition} {e : CompileError} (given : conditions ≠ [])
    (h : Inserted (fun c => ∃ name, c.operator = .unknown name) conditions conditions')
    (failed : compileConditions resolver .ignore conditions = .error e) :
    compileConditions resolver .ignore conditions' = .error e := by
  rw [compileConditions_eq_error_iff, ← mapM_eq_error_iff] at failed ⊢
  rcases failed with ⟨none, -⟩ | failed
  · exact absurd none given
  · exact .inr (h.mapM_eq_error (fun _ ⟨_, h⟩ => Condition.compile_ignore_of_unknown h) failed)

/-- A filter that a lenient compiler makes of conditions is alike to the one that it makes where
there are further conditions of unknown operators. -/
theorem exists_compileConditions_ignore_of_inserted {Record : Type u} (store : Evaluator Record)
    {resolver : Resolver} {conditions conditions' : List Condition} {filter : Filter}
    (h : Inserted (fun c => ∃ name, c.operator = .unknown name) conditions conditions')
    (compiled : compileConditions resolver .ignore conditions = .ok filter) :
    ∃ filter', compileConditions resolver .ignore conditions' = .ok filter' ∧
      filter.Alike store filter' := by
  obtain ⟨given, hentries⟩ := compileConditions_eq_ok_iff.1 compiled
  obtain ⟨entries, hmapped, inserted⟩ := h.mapM_eq_ok
    (fun _ ⟨_, h⟩ => Condition.compile_ignore_of_unknown h) (mapM_eq_ok_iff.2 hentries)
  have given' : conditions' ≠ [] := by
    rintro rfl
    cases h
    exact given rfl
  refine ⟨⟨entries⟩, compileConditions_eq_ok_iff.2 ⟨given', mapM_eq_ok_iff.1 hmapped⟩, ?_⟩
  exact Filter.alike_of_constraining_eq store
    (inserted.filter_eq fun d hd => by simp [hd])

/-- Entries of unknown names that are put into the lists of a client leave no trace where the
compiler is lenient. Sort keys, typed or read from texts, come to the same stage. A grouping comes
to the same stage or the same error, whatever the names of the outputs put in. Conditions, if there
are any, come to the same error or to filters that are alike, whatever the labels and values of the
conditions put in. -/
theorem compile_lenient_of_inserted {Record : Type u} (store : Evaluator Record) :
    (∀ specs specs', Inserted (fun spec => spec.direction ∉ SortDirection.known) specs specs' →
      (∃ stage, compileSortSpecs .ignore specs = .ok stage ∧
        compileSortSpecs .ignore specs' = .ok stage) ∧
      ∀ text text', parse (readList SortSpec.read) text = .ok specs →
        parse (readList SortSpec.read) text' = .ok specs' →
        compileSort .ignore text' = compileSort .ignore text) ∧
    (∀ (spec : AggregationSpec) outputs,
      Inserted (fun output => ¬ output.IsKnown) spec.aggregators outputs →
      { spec with aggregators := outputs }.compile .ignore = spec.compile .ignore) ∧
    ∀ resolver conditions conditions', conditions ≠ [] →
      Inserted (fun c => ∃ name, c.operator = .unknown name) conditions conditions' →
      (∀ e, compileConditions resolver .ignore conditions = .error e →
        compileConditions resolver .ignore conditions' = .error e) ∧
      ∀ filter, compileConditions resolver .ignore conditions = .ok filter →
        ∃ filter', compileConditions resolver .ignore conditions' = .ok filter' ∧
          filter.Alike store filter' := by
  refine ⟨fun specs specs' h => ⟨?_, fun text text' reads reads' => ?_⟩,
    fun spec outputs h => AggregationSpec.compile_ignore_of_inserted h,
    fun resolver conditions conditions' given h => ⟨fun e failed => ?_, fun filter compiled => ?_⟩⟩
  · have hstage : compileSortSpecs .ignore specs = .ok _ := compileSortSpecs_eq_ok nofun
    exact ⟨_, hstage, (compileSortSpecs_ignore_of_inserted h).trans hstage⟩
  · rw [compileSort, compileSort, reads, reads']
    exact compileSortSpecs_ignore_of_inserted h
  · exact compileConditions_ignore_of_inserted_eq_error given h failed
  · exact exists_compileConditions_ignore_of_inserted store h compiled

/-- A sort key among unknown ones of its own and of no name, an output after an unknown one of a
name that is not plain, and conditions, one refused and one compiled, before an unknown one. -/
theorem compile_lenient_of_inserted_each_list :
    let sort := "[[\"a\",\"up\"],[\"a\",\"asc\"],[\"\"]]"
    let spec : AggregationSpec := ⟨"g", some "t", [⟨"$x", .unknown "median"⟩, ⟨"n", .count⟩]⟩
    let refused : Condition := ⟨"$a", .eq, .null⟩
    let email : Condition := ⟨"email", .present, .null⟩
    let unknown : Condition := ⟨"$where", .unknown "", .null⟩
    compileSort .ignore sort = .ok ⟨[("a", .ascending)]⟩ ∧
      spec.compile .ignore = .ok ⟨"g", some "t", [("n", .count)]⟩ ∧
      compileConditions .noop .ignore [refused, unknown] =
        .error (.invalidCondition "$a" "=" (.label .dollar)) ∧
      ∃ filter', compileConditions .noop .ignore [email, unknown] = .ok filter' ∧
        Filter.Alike Evaluator.fields ⟨[[("email", .document [("$exists", .boolean true)])]]⟩
          filter' := by
  intro sort spec refused email unknown
  have hsort : Inserted (fun spec : SortSpec => spec.direction ∉ SortDirection.known)
      [⟨"a", "asc"⟩] [⟨"a", "up"⟩, ⟨"a", "asc"⟩, ⟨"", ""⟩] :=
    .insert (by decide) (.keep _ (.insert (by decide) .nil))
  have hoperator (c : Condition) :
      Inserted (fun c : Condition => ∃ name, c.operator = .unknown name) [c] [c, unknown] :=
    .keep c (.insert ⟨"", rfl⟩ .nil)
  have same := (compile_lenient_of_inserted Evaluator.fields).1 _ _ hsort
  have hsame := same.2 "[[\"a\",\"asc\"]]" sort (by cbv) (by cbv)
  have hgroup := (compile_lenient_of_inserted Evaluator.fields).2.1 ⟨"g", some "t", [⟨"n", .count⟩]⟩
    spec.aggregators (.insert (by simp [AggregatorSpec.IsKnown]) (.keep _ .nil))
  have hrefused := ((compile_lenient_of_inserted Evaluator.fields).2.2 .noop [refused] _ (by simp)
    (hoperator refused)).1
  have hemail := ((compile_lenient_of_inserted Evaluator.fields).2.2 .noop [email] _ (by simp)
    (hoperator email)).2
  exact ⟨hsame.trans (by cbv), hgroup.trans (by cbv), hrefused _ (by cbv), hemail _ (by cbv)⟩

end QueryPipeline
