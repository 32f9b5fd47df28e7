import QueryPipeline.Proofs.Service.Body
import QueryPipeline.Proofs.Service.Legible
import QueryPipeline.Proofs.Value.Carried

/-!
# Answers read back

The text of an answer with a pipeline spells a tree for each stage and one for the count document
(`CompiledPipeline.spells_write`). From each tree the reader of documents makes the
document that was written, as JSON carries it (`Settings.respond_reads_back`). Three things are in
the way of that: a tree may nest deeper than a reader goes, a field of a projection or a sort stage
may have a name that announces a typed value, and JSON has no exact form for some values.
-/

namespace QueryPipeline

open Json

/-! ## Documents -/

/-- Where a document was written, one that is related to it is read. -/
def Document.ReadsAs (R : Value → Value → Prop) (d : Document) (node : Node) : Prop :=
  ∃ back, readDocument maxDepth node = .ok back ∧ Value.RelatedEntries R d back

/-- A legible document is read from its tree as it reads back. -/
theorem Document.Legible.readDocument_node {d : Document} (h : d.Legible) {room : Nat}
    (deep : d.node.depth ≤ room) : readDocument room d.node = .ok d.reread := by
  rw [node, Value.node, Node.depth] at deep
  obtain ⟨inner, rfl, inside⟩ := exists_room deep
  have read : readMembers inner [] (.ofList (Value.members d)) =
      .ok (.document ([] ++ Value.rereadEntries d)) :=
    readMembers_members h.values h.keys.distinct h.keys.plain inside
  rw [node, Value.node, readDocument, readScope, read]
  rfl

/-- Of the tree of a legible document what is related to it is read exactly if a reader can enter the
tree, whatever relation holds between it and what it reads back as. -/
theorem Document.Legible.readsAs_iff {R : Value → Value → Prop} {d : Document} (h : d.Legible)
    (related : Value.RelatedEntries R d d.reread) :
    d.ReadsAs R d.node ↔ d.node.depth ≤ maxDepth :=
  ⟨fun ⟨_, read, _⟩ => readDocument_depth_le read, fun deep => ⟨_, h.readDocument_node deep, related⟩⟩

/-- A document of which JSON has an exact form throughout comes back up to the widths of integers. -/
theorem Document.agrees_reread {d : Document} (exact : Value.ThroughoutEntries Value.IsExact d) :
    Value.RelatedEntries Value.SameUpToWidth d d.reread :=
  Value.agrees_reread (v := .document d) ⟨trivial, exact⟩

/-- The base predicate of a body is legible. -/
theorem PipelineBody.legible_base {text : String} {body : PipelineBody}
    (accepted : parse PipelineBody.read text = .ok body) : body.base.Legible := by
  obtain ⟨members, draft, -, hbase, -, -⟩ :=
    PipelineBody.read_eq_ok_iff.1 (parse_eq_ok_iff.1 accepted).1
  rcases (isSlot_baseStep 126).of_readFields hbase with ⟨-, absent⟩ | ⟨node, d, -, hd, hslot⟩
  · cases absent
  · cases hslot
    exact readDocument_legible hd

/-! ## Answers -/

/-- The elements of an array are known from its tree. -/
theorem ofList_injective : Function.Injective Items.ofList := by
  intro nodes
  induction nodes with
  | nil =>
    intro others h
    cases others with
    | nil => rfl
    | cons => cases h
  | cons node rest ih =>
    intro others h
    cases others with
    | nil => cases h
    | cons other others =>
      obtain ⟨hnode, hrest⟩ := Items.cons.inj h
      rw [hnode, ih hrest]

/-- The text of a pipeline spells no other tree of the form of an answer. -/
theorem CompiledPipeline.eq_of_spells (pipeline : CompiledPipeline) {elements : List Node}
    {count : Node} (spells : Spells (String.ofList pipeline.write)
      (.object (.ofList [("pipeline", .array (.ofList elements)), ("count", count)]))) :
    elements = pipeline.toDocuments.map Document.node ∧ count = pipeline.count.node := by
  have same := (Scanned.mk.inj
    ((spells_iff.1 spells).1.symm.trans (spells_iff.1 pipeline.spells_write).1)).1
  simp only [node, Node.object.injEq, Members.ofList, Members.cons.injEq, Node.array.injEq,
    true_and, and_true] at same
  exact ⟨ofList_injective same.1, same.2⟩

namespace Settings

/-- The functions that variables give stand for legible values. -/
theorem legible_functions {lookup : String → Option String} {settings : Settings}
    (configured : ofLookup lookup = .ok settings) : LegibleTable settings.functions := by
  obtain ⟨functions, hfunctions, h⟩ := bind_eq_ok_iff.1 configured
  cases pure_eq_ok_iff.1 h
  unfold functionTable at hfunctions
  split at hfunctions
  · exact readTable_legible (parse_eq_ok_iff.1 hfunctions).1
  · cases hfunctions
    exact fun _ mem => absurd mem List.not_mem_nil

/-- A request to compile is answered with success exactly if its body is read and compiled. -/
theorem exists_body_of_respond {settings : Settings} {request : HttpRequest}
    (path : Target.path request.target = "/v1/pipeline") (method : request.method = "POST")
    (answered : (settings.respond request).status = 200) :
    ∃ body pipeline, parse PipelineBody.read request.body = .ok body ∧
      settings.compiler.compileRequest body.base body.request = .ok pipeline ∧
      settings.respond request = ⟨200, .compiled pipeline⟩ := by
  have routed : settings.respond request = settings.compiler.respond request := by
    unfold respond
    rw [path]
    simp only [method]
  rw [routed] at answered ⊢
  generalize hresponse : settings.compiler.respond request = response at answered
  unfold Compiler.respond at hresponse
  split at hresponse
  · cases hresponse
    cases answered
  · split at hresponse
    · cases hresponse
      cases answered
    · split at hresponse
      · next body accepted =>
        unfold Compiler.answer at hresponse
        split at hresponse
        · next pipeline compiled => exact ⟨body, pipeline, accepted, compiled, hresponse.symm⟩
        · cases hresponse
          cases answered
      · cases hresponse
        cases answered
      · cases hresponse
        cases answered

/-- The document of a stage comes back exactly if no field of it is marked and a reader can enter its
tree. -/
theorem readsAs_stage_iff {compiler : Compiler} {base : Document} {raw : RawRequest}
    {pipeline : CompiledPipeline} (compiled : compiler.compileRequest base raw = .ok pipeline)
    (predicate : base.Legible) (functions : compiler.resolver.Legible) {stage : Stage}
    (mem : stage ∈ pipeline.stages) {R : Value → Value → Prop} (keeps : Value.KeepsDocuments R)
    (related : Value.RelatedEntries R stage.toDocument stage.toDocument.reread) :
    stage.toDocument.ReadsAs R stage.toDocument.node ↔
      stage.FieldsUnmarked ∧ stage.toDocument.node.depth ≤ maxDepth := by
  constructor
  · rintro ⟨back, read, h⟩
    exact ⟨Stage.fieldsUnmarked_of_related keeps h (readDocument_legible read),
      readDocument_depth_le read⟩
  · rintro ⟨unmarked, deep⟩
    have legible := Compiler.legible_of_mem_stages compiled predicate functions mem unmarked
    exact (legible.readsAs_iff related).2 deep

/-- The answer to a body that is compiled gives back what it was compiled to. Its text is an object
of the stages in their order and the count document. Each of these is read as a document again with
the same keys in the same order and the values that JSON carries, exactly if it does not nest too
deep and no field that is projected or sorted by has a name that announces a typed value; and if
JSON has an exact form for each of its values, only the widths of integers may differ. -/
theorem respond_reads_back {lookup : String → Option String} {settings : Settings}
    (configured : ofLookup lookup = .ok settings) {request : HttpRequest}
    (path : Target.path request.target = "/v1/pipeline") (method : request.method = "POST")
    (answered : (settings.respond request).status = 200) :
    ∃ body pipeline text elements count,
      parse PipelineBody.read request.body = .ok body ∧
      settings.compiler.compileRequest body.base body.request = .ok pipeline ∧
      settings.respond request = ⟨200, .compiled pipeline⟩ ∧
      (ResponseBody.compiled pipeline).text? = some text ∧
      Spells (String.ofList text) (.object (.ofList [("pipeline", .array (.ofList elements)),
        ("count", count)])) ∧
      List.Forall₂ (fun stage element =>
        (stage.toDocument.ReadsAs Value.Carried element ↔
          stage.FieldsUnmarked ∧ element.depth ≤ maxDepth) ∧
        (Value.ThroughoutEntries Value.IsExact stage.toDocument →
          (stage.toDocument.ReadsAs Value.SameUpToWidth element ↔
            stage.FieldsUnmarked ∧ element.depth ≤ maxDepth))) pipeline.stages elements ∧
      (pipeline.count.ReadsAs Value.Carried count ↔ count.depth ≤ maxDepth) ∧
      (Value.ThroughoutEntries Value.IsExact pipeline.count →
        (pipeline.count.ReadsAs Value.SameUpToWidth count ↔ count.depth ≤ maxDepth)) := by
  obtain ⟨body, pipeline, accepted, compiled, response⟩ :=
    exists_body_of_respond path method answered
  have base := PipelineBody.legible_base accepted
  have functions : settings.compiler.resolver.Legible :=
    Resolver.legible_ofTable (legible_functions configured)
  have count := Compiler.legible_count compiled base functions
  refine ⟨body, pipeline, pipeline.write, pipeline.toDocuments.map Document.node,
    pipeline.count.node, accepted, compiled, response, rfl, pipeline.spells_write, ?_,
    count.readsAs_iff (Value.carried_rereadEntries _),
    fun exact => count.readsAs_iff (Document.agrees_reread exact)⟩
  rw [CompiledPipeline.toDocuments, List.map_map, List.forall₂_map_right_iff]
  refine List.forall₂_same.2 fun stage mem => ⟨?_, fun exact => ?_⟩
  · exact readsAs_stage_iff compiled base functions mem Value.Carried.keepsDocuments
      (Value.carried_rereadEntries _)
  · exact readsAs_stage_iff compiled base functions mem Value.SameUpToWidth.keepsDocuments
      (Document.agrees_reread exact)

/-! ## Faithful answers -/

/-- The answer to a request gives back what it was compiled to, up to the widths of integers. -/
def Faithful (settings : Settings) (request : HttpRequest) : Prop :=
  ∃ pipeline text elements count, settings.respond request = ⟨200, .compiled pipeline⟩ ∧
    (ResponseBody.compiled pipeline).text? = some text ∧
    Spells (String.ofList text) (.object (.ofList [("pipeline", .array (.ofList elements)),
      ("count", count)])) ∧
    List.Forall₂ (fun stage element => stage.toDocument.ReadsAs Value.SameUpToWidth element)
      pipeline.stages elements ∧
    pipeline.count.ReadsAs Value.SameUpToWidth count

/-- A body that begins with its base predicate is read from that and its other members. -/
theorem parse_base {text : String} {node : Node} {rest : Members} {base : Document}
    {draft : RequestDraft} (scanned : scan text = ⟨.object (.cons (.text "base") node rest), true⟩)
    (read : readDocument 126 node = .ok base)
    (checked : rest.readFields (baseStep 126) (some base) = .ok (some base))
    (request : rest.readFields (requestStep 126) .empty = .ok draft) :
    parse PipelineBody.read text = .ok ⟨base, draft.request⟩ := by
  have enter : maxDepth = 126 + 1 := rfl
  rw [parse_eq_ok_iff, scanned, enter]
  refine ⟨PipelineBody.read_eq_ok_iff.2 ⟨_, draft, rfl, ?_, ?_, rfl⟩, rfl⟩
  · exact Members.readFields_cons_eq_ok_iff.2
      ⟨"base", some base, rfl, map_eq_ok_iff.2 ⟨base, read, rfl⟩, checked⟩
  · exact Members.readFields_cons_eq_ok_iff.2 ⟨"base", .empty, rfl, rfl, request⟩

/-- A body that begins with its base predicate and is compiled is answered with what it is compiled
to. -/
theorem respond_post {settings : Settings} {body : String} {node : Node} {rest : Members}
    {base : Document} {draft : RequestDraft} {pipeline : CompiledPipeline}
    (small : body.utf8ByteSize ≤ maxBodySize)
    (scanned : scan body = ⟨.object (.cons (.text "base") node rest), true⟩)
    (read : readDocument 126 node = .ok base)
    (checked : rest.readFields (baseStep 126) (some base) = .ok (some base))
    (request : rest.readFields (requestStep 126) .empty = .ok draft)
    (compiled : settings.compiler.compileRequest base draft.request = .ok pipeline) :
    settings.respond (post body) = ⟨200, .compiled pipeline⟩ := by
  rw [respond_post_of_accepted (parse_base scanned read checked request),
    if_neg (Nat.not_lt.2 small)]
  unfold Compiler.answer
  rw [compiled]

/-- The answer to a base predicate with a double and one sort key. -/
theorem respond_reads_back_sorted :
    let request := post "\x7b\"base\":\x7b\"x\":1.5\x7d,\"sort\":\"[[\\\"a\\\",\\\"asc\\\"]]\"\x7d"
    ofLookup (fun _ => none) = .ok standard ∧ Target.path request.target = "/v1/pipeline" ∧
      request.method = "POST" ∧ (standard.respond request).status = 200 ∧
      standard.Faithful request := by
  intro request
  have configured : ofLookup (fun _ => none) = .ok standard := rfl
  have path : Target.path request.target = "/v1/pipeline" := by decide
  have finite : ((1.5 : Float).isNaN || (1.5 : Float).isInf) = false := by decide +kernel
  have numeral : Double.numeral 1.5 = .written ⟨false, ['1'], ['5'], none⟩ := by decide +kernel
  -- from here on the double is known by its text alone: evaluation does not get past its bits
  generalize (1.5 : Float) = x at finite numeral
  let base : Document := [("x", .double x)]
  have exact : Value.ThroughoutEntries Value.IsExact base :=
    ⟨⟨finite, _, numeral, by decide, by decide, by decide⟩, trivial⟩
  have node : base.node = .single "x" (.number (.written ⟨false, ['1'], ['5'], none⟩)) := by
    rw [Document.node, Value.node, Value.members, Value.members, Value.node, finite, numeral]
    rfl
  have shallow : base.node.depth = 1 := by
    rw [node]
    rfl
  have read : readDocument 126 base.node = .ok base := by
    have legible : base.Legible := Document.legible_single (by decide) trivial
    rw [legible.readDocument_node (by omega), Document.reread, Value.rereadEntries, Value.reread,
      finite, Double.reread_of_isShort finite exact.1.2]
    rfl
  have scanned : scan request.body = ⟨.object (.cons (.text "base") base.node
      (.cons (.text "sort") (.ofText "[[\"a\",\"asc\"]]") .closed)), true⟩ := by
    rw [node]
    cbv
  have compiled : standard.compiler.compileRequest base
      ⟨none, some "[[\"a\",\"asc\"]]", none, none, none, none⟩ =
        .ok ⟨[.matching base, .sort [("a", .int32 1)], .skip 0, .limit 10], base⟩ := by cbv
  have answered : standard.respond request = ⟨200, .compiled _⟩ :=
    respond_post (by decide) scanned read rfl rfl compiled
  have success : (standard.respond request).status = 200 := congrArg HttpResponse.status answered
  obtain ⟨_, pipeline, _, elements, count, -, -, answered', ⟨⟩, spells, stages, -, hcount⟩ :=
    respond_reads_back configured path rfl success
  cases answered.symm.trans answered'
  obtain ⟨rfl, rfl⟩ := CompiledPipeline.eq_of_spells _ spells
  refine ⟨configured, path, rfl, success, _, _, _, _, answered, rfl, spells, ?_, ?_⟩
  · rw [CompiledPipeline.toDocuments, List.map_map, List.forall₂_map_right_iff,
      List.forall₂_same] at stages ⊢
    intro stage mem
    refine ((stages stage mem).2 ?_).2 ?_
    all_goals
      simp only [List.mem_cons, List.not_mem_nil, or_false] at mem
      rcases mem with rfl | rfl | rfl | rfl
    · exact ⟨⟨trivial, exact⟩, trivial⟩
    · exact ⟨⟨trivial, trivial, trivial⟩, trivial⟩
    · exact ⟨trivial, trivial⟩
    · exact ⟨trivial, trivial⟩
    · change True ∧ (Node.single "$match" base.node).depth ≤ maxDepth
      rw [Node.depth_single, shallow]
      decide
    · exact ⟨by simp only [Stage.FieldsUnmarked]; decide, by decide⟩
    · exact ⟨trivial, by decide⟩
    · exact ⟨trivial, by decide⟩
  · exact (hcount exact).2 (by rw [shallow]; decide)

/-! ## Answers that are not faithful -/

/-- A faithful answer gives back the document of each stage and the count document from the tree of
its own. -/
theorem Faithful.readsAs {settings : Settings} {request : HttpRequest} {pipeline : CompiledPipeline}
    (h : settings.Faithful request) (answered : settings.respond request = ⟨200, .compiled pipeline⟩) :
    (∀ stage ∈ pipeline.stages,
        stage.toDocument.ReadsAs Value.SameUpToWidth stage.toDocument.node) ∧
      pipeline.count.ReadsAs Value.SameUpToWidth pipeline.count.node := by
  obtain ⟨_, _, elements, count, answered', ⟨⟩, spells, stages, h⟩ := h
  cases answered.symm.trans answered'
  obtain ⟨rfl, rfl⟩ := pipeline.eq_of_spells spells
  rw [CompiledPipeline.toDocuments, List.map_map, List.forall₂_map_right_iff,
    List.forall₂_same] at stages
  exact ⟨stages, h⟩

section
variable {settings : Settings} {request : HttpRequest} {pipeline : CompiledPipeline}

/-- An answer whose count document is legible and changed when it is read back is not faithful. -/
theorem not_faithful_of_changed (answered : settings.respond request = ⟨200, .compiled pipeline⟩)
    (legible : pipeline.count.Legible)
    (changed : ¬ Value.RelatedEntries Value.SameUpToWidth pipeline.count pipeline.count.reread) :
    ¬ settings.Faithful request := by
  intro faithful
  obtain ⟨back, read, related⟩ := (faithful.readsAs answered).2
  cases read.symm.trans (legible.readDocument_node (readDocument_depth_le read))
  exact changed related

/-- An answer with a count document that no reader can enter is not faithful. -/
theorem not_faithful_of_deep (answered : settings.respond request = ⟨200, .compiled pipeline⟩)
    (deep : maxDepth < pipeline.count.node.depth) : ¬ settings.Faithful request := by
  intro faithful
  obtain ⟨back, read, -⟩ := (faithful.readsAs answered).2
  exact absurd (readDocument_depth_le read) (Nat.not_le.2 deep)

/-- An answer with a stage of a marked field is not faithful. -/
theorem not_faithful_of_marked (answered : settings.respond request = ⟨200, .compiled pipeline⟩)
    {stage : Stage} (mem : stage ∈ pipeline.stages) (marked : ¬ stage.FieldsUnmarked) :
    ¬ settings.Faithful request := by
  intro faithful
  obtain ⟨back, read, related⟩ := (faithful.readsAs answered).1 stage mem
  exact marked (Stage.fieldsUnmarked_of_related Value.SameUpToWidth.keepsDocuments related
    (readDocument_legible read))

end

/-- A document of one typed value is read from its key and the body that the key announces. -/
theorem readDocument_typed {room : Nat} {name key : String} {node : Node} {reader : Reader Value}
    {v : Value} (plain : name ∉ typedKeys) (announced : typedReader? key = some reader)
    (read : reader room node = .ok v) :
    readDocument (room + 2) (.single name (.single key node)) = .ok [(name, v)] := by
  have value : readValue (room + 1) (.single key node) = .ok v := readValue_single key announced read
  have members : readMembers (room + 1) [] (.cons (.text name) (.single key node) .closed) =
      .ok (.document [(name, v)]) := readMembers_plain plain value
  rw [readDocument, Node.single, readScope, Members.ofList, Members.ofList, members]
  rfl

/-- The answer to a base predicate with a typed value that is changed when it is read back is not
faithful. -/
theorem not_faithful_of_typed {settings : Settings} {body key : String} {node : Node}
    {reader : Reader Value} {v : Value} (small : body.utf8ByteSize ≤ maxBodySize)
    (scanned : scan body = ⟨.single "base" (.single "x" (.single key node)), true⟩)
    (announced : typedReader? key = some reader) (read : reader 124 node = .ok v)
    (changed : ¬ v.Related Value.SameUpToWidth v.reread) :
    (settings.respond (post body)).status = 200 ∧ ¬ settings.Faithful (post body) := by
  have base : readDocument 126 (.single "x" (.single key node)) = .ok [("x", v)] :=
    readDocument_typed (by decide) announced read
  have answered : settings.respond (post body) = ⟨200, .compiled _⟩ :=
    respond_post small scanned base rfl rfl rfl
  refine ⟨congrArg HttpResponse.status answered, ?_⟩
  exact not_faithful_of_changed answered (readDocument_legible base) fun related =>
    changed related.2.1

/-- A text that is turned into a value is read as that value. -/
theorem readTextAs_ofText {α : Type} {ofText? : String → Option α} {expected text : String}
    {room : Nat} {a : α} (h : ofText? text = some a) :
    readTextAs ofText? expected room (.ofText text) = .ok a := by
  refine bind_eq_ok_iff.2 ⟨text, rfl, ?_⟩
  simp only [h]
  rfl

/-- An array in an array, and so on. -/
def nested : Nat → Value
  | 0 => .array []
  | n + 1 => .array [nested n]

/-- Nested arrays are legible. -/
theorem nested_legible (n : Nat) : (nested n).Throughout Value.Legible := by
  induction n with
  | zero => exact ⟨trivial, trivial⟩
  | succ n ih => exact ⟨trivial, ih, trivial⟩

/-- Nested arrays come back as they are. -/
theorem nested_reread (n : Nat) : (nested n).reread = nested n := by
  induction n with
  | zero => rfl
  | succ n ih => rw [nested, Value.reread, Value.rereadItems, ih, Value.rereadItems]

/-- The text of a body with a base predicate and a filter. -/
def filteredBody (base : Document) (filter : String) : String :=
  String.ofList (writeObject [writeMember "base" base.write, writeMember "filter" (writeText filter)])

/-- The tree of a body with a base predicate and a filter. -/
theorem scan_filteredBody (base : Document) (filter : String) :
    scan (filteredBody base filter) =
      ⟨.object (.ofList [("base", base.node), ("filter", .ofText filter)]), true⟩ := by
  have spelled := spells_writeObject
    (.cons (spellsMember_writeMember "base" (Value.spells_write (.document base)))
      (.cons (spellsMember_writeMember "filter" (spells_writeText filter)) .nil))
  exact (spells_iff.1 spelled.spells).1

/-- A body whose base predicate nests as deep as the body lets it, with a filter: the count document
joins the two one level further down. -/
def deepBody : String :=
  filteredBody [("x", nested 124)] "[[\"a\",\"Empty\"]]"

/-- The count document of a body may nest too deep to be read. -/
theorem not_faithful_deepBody :
    (standard.respond (post deepBody)).status = 200 ∧ ¬ standard.Faithful (post deepBody) := by
  have legible : Document.Legible [("x", nested 124)] :=
    Document.legible_single (by decide) (nested_legible 124)
  have enters : (Document.node [("x", nested 124)]).depth ≤ 126 := by decide +kernel
  have read : readDocument 126 (Document.node [("x", nested 124)]) = .ok [("x", nested 124)] := by
    rw [legible.readDocument_node enters, Document.reread, Value.rereadEntries, nested_reread,
      Value.rereadEntries]
  have small : deepBody.utf8ByteSize ≤ maxBodySize := by decide +kernel
  have answered : standard.respond (post deepBody) = ⟨200, .compiled _⟩ :=
    respond_post small (scan_filteredBody _ _) read rfl rfl (by cbv)
  exact ⟨congrArg HttpResponse.status answered, not_faithful_of_deep answered (by decide +kernel)⟩

/-- Where no variable is given an answer may not give back what was compiled: what is not a number
comes back as null, a double of sixteen digits as a double beside it, bytes of the generic subtype
as numbers, and an encoding of zero as the canonical one. A stage that sorts by `$oid` and a count
document that nests too deep are not read at all. -/
theorem respond_not_faithful :
    ofLookup (fun _ => none) = .ok standard ∧
    ∀ body ∈ ["\x7b\"base\":\x7b\"x\":\x7b\"$numberDouble\":\"NaN\"\x7d\x7d\x7d",
        "\x7b\"base\":\x7b\"x\":\x7b\"$numberDouble\":\"0.09090909090909091\"\x7d\x7d\x7d",
        "\x7b\"base\":\x7b\"x\":\x7b\"$binary\":\x7b\"base64\":\"AA==\",\"subType\":\"00\"\x7d\x7d\x7d\x7d",
        "\x7b\"base\":\x7b\"x\":\x7b\"$numberDecimalBytes\":\"aaaaaaaaaaaaaaaa\"\x7d\x7d\x7d",
        "\x7b\"base\":\x7b\x7d,\"sort\":\"[[\\\"$oid\\\",\\\"asc\\\"]]\"\x7d", deepBody],
      (standard.respond (post body)).status = 200 ∧ ¬ standard.Faithful (post body) := by
  refine ⟨rfl, ?_⟩
  simp only [List.mem_cons, List.not_mem_nil, or_false]
  rintro body (rfl | rfl | rfl | rfl | rfl | rfl)
  · have text : doubleOfText? "NaN" = some (Float.ofBits 0x7ff8000000000000) := by cbv
    have notANumber : (Float.ofBits 0x7ff8000000000000).isNaN = true := by decide +kernel
    refine not_faithful_of_typed (by decide) (by cbv) rfl
      (map_eq_ok_iff.2 ⟨_, readTextAs_ofText text, rfl⟩) fun related => ?_
    have same := Value.SameUpToWidth.eq related rfl
    rw [Value.reread, notANumber] at same
    cases same
  · have moved : (doubleOfText? "0.09090909090909091").any
        (fun x => (Double.reread x).toBits != x.toBits) = true := by decide +kernel
    obtain ⟨x, text, moved⟩ := (Option.any_eq_true _ _).1 moved
    refine not_faithful_of_typed (by decide) (by cbv) rfl
      (map_eq_ok_iff.2 ⟨_, readTextAs_ofText text, rfl⟩) fun related => ?_
    have same := Value.SameUpToWidth.eq related rfl
    rw [Value.reread] at same
    split at same
    · cases same
    · exact bne_iff_ne.1 moved (congrArg Float.toBits (Value.double.inj same))
  · have read : readBinary 124 (.object (.ofList [("base64", .ofText "AA=="),
        ("subType", .ofText "00")])) = .ok (.binary 0 [0]) := by cbv
    refine not_faithful_of_typed (by decide) (by cbv) rfl read fun related => ?_
    cases Value.SameUpToWidth.eq related rfl
  · have read : readDecimalBytes 124 (.ofText "aaaaaaaaaaaaaaaa") =
        .ok (.decimal ⟨List.replicate 16 97, rfl⟩) := by cbv
    have other : (⟨List.replicate 16 97, rfl⟩ : Decimal128).canonical ≠
        ⟨List.replicate 16 97, rfl⟩ := by decide +kernel
    refine not_faithful_of_typed (by decide) (by cbv) rfl read fun related => ?_
    exact other (Value.decimal.inj (Value.SameUpToWidth.eq related rfl))
  · have answered : standard.respond
          (post "\x7b\"base\":\x7b\x7d,\"sort\":\"[[\\\"$oid\\\",\\\"asc\\\"]]\"\x7d") =
        ⟨200, .compiled ⟨[.matching [], .sort [("$oid", .int32 1)], .skip 0, .limit 10], []⟩⟩ :=
      respond_post (by decide) (by cbv) (rfl : readDocument 126 (.object .closed) = .ok [])
        rfl rfl (by cbv)
    refine ⟨congrArg HttpResponse.status answered, ?_⟩
    exact not_faithful_of_marked answered (.tail _ (.head _)) fun unmarked =>
      unmarked "$oid" (.head _) (by decide)
  · exact not_faithful_deepBody

end Settings

end QueryPipeline
