import Mathlib
import QueryPipeline.Proofs.Json.Fields
import QueryPipeline.Proofs.Service.Answer
import QueryPipeline.Proofs.Value.Room

/-!
# Bodies and requests

A body is a request with one member more, the base predicate. Its members are read twice over: once
for the base predicate, where every other member is checked as a whole, and once for the request.
Read as a request, the same text takes the base predicate for a member that it does not know, of
which it sees no more than that it can be passed over (`readFields_field_eq_ok_iff`). So the text of
a body reads as its request exactly if it is JSON; a text that is not may be a body, since a decimal
number that is given by its bytes may hold control characters as they are.
`PipelineBody.agrees_with_request` puts this together with the answers of the service, which answers
a body as the library does unless the body is too great to be read
(`PipelineBody.great_body_refused`).
-/

namespace QueryPipeline

open Json

/-! ## Values that were checked -/

mutual

/-- A value that was read as one of any shape can be passed over. -/
theorem Json.Node.pass_of_check : ∀ {node : Node} {room : Nat}, node.check room = .ok () →
    node.pass = .ok ()
  | .absent _, _, h | .misspelled _, _, h => by cases h
  | .null, _, _ | .boolean _, _, _ => rfl
  | .number (.written _), _, _ => rfl
  | .number (.broken _), _, h => by cases h
  | .string (.text _), _, _ => rfl
  | .string (.loose _ _), _, h | .string (.broken _), _, h => by cases h
  | .array _, 0, h | .object _, 0, h => by cases h
  | .array items, room + 1, h => by
    rw [Node.check] at h
    exact Items.pass_of_check h
  | .object members, room + 1, h => by
    rw [Node.check] at h
    exact Members.pass_of_check h

/-- Elements that were read as values of any shape can be passed over. -/
theorem Json.Items.pass_of_check : ∀ {items : Items} {room : Nat}, items.check room = .ok () →
    items.pass = .ok ()
  | .closed, _, _ => rfl
  | .cut _, _, h => by cases h
  | .cons head tail, room, h => by
    rw [Items.check] at h
    obtain ⟨_, hhead, htail⟩ := bind_eq_ok_iff.1 h
    exact Items.pass_cons_eq_ok_iff.2 ⟨Node.pass_of_check hhead, Items.pass_of_check htail⟩

/-- Members that were read as values of any shape can be passed over. -/
theorem Json.Members.pass_of_check : ∀ {members : Members} {room : Nat},
    members.check room = .ok () → members.pass = .ok ()
  | .closed, _, _ => rfl
  | .cut _, _, h | .unnamed _, _, h => by cases h
  | .cons key value tail, room, h => by
    rw [Members.check] at h
    obtain ⟨name, hname, h⟩ := bind_eq_ok_iff.1 h
    obtain ⟨_, hvalue, htail⟩ := bind_eq_ok_iff.1 h
    obtain rfl := Quoted.read_eq_ok_iff.1 (orFault_eq_ok_iff.1 hname)
    exact Members.pass_cons_eq_ok_iff.2
      ⟨rfl, Node.pass_of_check hvalue, Members.pass_of_check htail⟩

end

/-! ## The members of a body -/

section
variable {room : Nat} {name : String}

/-- The first reading keeps the base predicate, which may be given once. -/
theorem isSlot_baseStep (room : Nat) : IsSlot (baseStep room) "base" (readDocument room) id where
  own s node s' h := by
    cases s with
    | some base => cases h
    | none =>
      obtain ⟨d, hd, rfl⟩ := map_eq_ok_iff.1 h
      exact ⟨rfl, d, hd, rfl⟩
  other name s node s' hname h := by
    unfold baseStep at h
    split at h
    · exact absurd rfl hname
    · obtain ⟨_, -, rfl⟩ := map_eq_ok_iff.1 h
      rfl

/-- The first reading checks a member that is not the base predicate. -/
theorem check_of_run_baseStep {s s' : Option Document} {node : Node} (hname : name ≠ "base")
    (h : (baseStep room name s).run s node = .ok s') : node.check room = .ok () := by
  unfold baseStep at h
  split at h
  · exact absurd rfl hname
  · obtain ⟨⟨⟩, hcheck, -⟩ := map_eq_ok_iff.1 h
    exact hcheck

/-- The second reading takes any other member as a request does. -/
theorem requestStep_of_ne (draft : RequestDraft) (hname : name ≠ "base") :
    requestStep room name draft = RequestDraft.field room name draft := by
  unfold requestStep
  split
  · exact absurd rfl hname
  · rfl

/-- The members of a body are read as those of a request exactly if they can be passed over and the
second reading takes them: of the base predicate the request sees no more than that. -/
theorem readFields_field_eq_ok_iff : ∀ {members : Members} {s t : Option Document}
    {draft draft' : RequestDraft}, members.readFields (baseStep room) s = .ok t →
    (members.readFields (RequestDraft.field room) draft = .ok draft' ↔
      members.pass = .ok () ∧ members.readFields (requestStep room) draft = .ok draft')
  | .closed, _, _, _, _, _ => by simp [Members.readFields, Members.pass]
  | .cut _, _, _, _, _, h | .unnamed _, _, _, _, _, h => by cases h
  | .cons key value tail, s, t, draft, draft', h => by
    obtain ⟨name, s', rfl, hrun, htail⟩ := Members.readFields_cons_eq_ok_iff.1 h
    simp only [Members.readFields_cons_eq_ok_iff, Members.pass_cons_eq_ok_iff]
    constructor
    · rintro ⟨_, next, ⟨⟩, hstep, hnext⟩
      obtain ⟨passed, hrest⟩ := (readFields_field_eq_ok_iff htail).1 hnext
      by_cases hname : name = "base"
      · subst hname
        obtain ⟨hvalue, rfl⟩ := FieldStep.run_pass_eq_ok_iff.1 hstep
        exact ⟨⟨rfl, hvalue, passed⟩, "base", next, rfl, rfl, hrest⟩
      · refine ⟨⟨rfl, Node.pass_of_check (check_of_run_baseStep hname hrun), passed⟩,
          name, next, rfl, ?_, hrest⟩
        rw [requestStep_of_ne draft hname]
        exact hstep
    · rintro ⟨⟨-, hvalue, passed⟩, _, next, ⟨⟩, hstep, hrest⟩
      have hnext := (readFields_field_eq_ok_iff htail).2 ⟨passed, hrest⟩
      by_cases hname : name = "base"
      · subst hname
        cases hstep
        exact ⟨"base", draft, rfl, FieldStep.run_pass_eq_ok_iff.2 ⟨hvalue, rfl⟩, hnext⟩
      · rw [requestStep_of_ne draft hname] at hstep
        exact ⟨name, next, rfl, hstep, hnext⟩

end

/-! ## Bodies -/

/-- A body is read from the members of an object, in two readings. -/
theorem PipelineBody.read_eq_ok_iff {room : Nat} {node : Node} {body : PipelineBody} :
    PipelineBody.read (room + 1) node = .ok body ↔ ∃ members draft, node = .object members ∧
      members.readFields (baseStep room) none = .ok (some body.base) ∧
      members.readFields (requestStep room) .empty = .ok draft ∧ draft.request = body.request := by
  cases node with
  | object members =>
    rw [PipelineBody.read]
    simp only [bind_eq_ok_iff]
    constructor
    · rintro ⟨base, hbase, h⟩
      cases base with
      | none => cases h
      | some base =>
        obtain ⟨draft, hdraft, hbody⟩ := bind_eq_ok_iff.1 h
        cases pure_eq_ok_iff.1 hbody
        exact ⟨members, draft, rfl, hbase, hdraft, rfl⟩
    · rintro ⟨_, draft, ⟨⟩, hbase, hdraft, hrequest⟩
      exact ⟨some body.base, hbase, bind_eq_ok_iff.2 ⟨draft, hdraft, by rw [hrequest]; rfl⟩⟩
  | _ => simp [PipelineBody.read, wrongKind_ne_ok]

/-! ## Bodies and requests -/

/-- The text of a body reads as its request exactly if it is JSON. -/
theorem PipelineBody.parse_request_iff {text : String} {body : PipelineBody}
    (accepted : parse PipelineBody.read text = .ok body) :
    parse RawRequest.read text = .ok body.request ↔ IsJson text := by
  obtain ⟨hread, whole⟩ := parse_eq_ok_iff.1 accepted
  obtain ⟨members, draft, hnode, hbase, hdraft, hrequest⟩ := PipelineBody.read_eq_ok_iff.1 hread
  rw [parse_eq_ok_iff, isJson_iff, whole, hnode]
  have hmembers : RawRequest.read maxDepth (.object members) = .ok body.request ↔
      members.pass = .ok () := by
    constructor
    · intro h
      rcases readRecord_eq_ok_iff.1 h with ⟨_, _, ⟨⟩, -, -⟩ | ⟨_, ⟨⟩, hfields⟩
      obtain ⟨draft', hdraft', -⟩ := bind_eq_ok_iff.1 hfields
      exact ((readFields_field_eq_ok_iff hbase).1 hdraft').1
    · intro pass
      have hfields := (readFields_field_eq_ok_iff hbase).2 ⟨pass, hdraft⟩
      refine readRecord_eq_ok_iff.2 (.inr ⟨members, rfl, ?_⟩)
      exact bind_eq_ok_iff.2 ⟨draft, hfields, by rw [hrequest]; rfl⟩
  rw [hmembers, and_comm]
  rfl

/-- The base predicate of a body of JSON is read from the text of its member. -/
theorem PipelineBody.exists_base {text : String} {body : PipelineBody}
    (accepted : parse PipelineBody.read text = .ok body) (json : IsJson text) :
    ∃ members node before alone after, Spells text (.object members) ∧
      members.find? "base" = some node ∧ text = before ++ alone ++ after ∧ Spells alone node ∧
      parse readDocument alone = .ok body.base := by
  obtain ⟨hread, whole⟩ := parse_eq_ok_iff.1 accepted
  obtain ⟨members, draft, hnode, hbase, -, -⟩ := PipelineBody.read_eq_ok_iff.1 hread
  have spelled : Spells text (.object members) := by
    rw [← hnode]
    exact spells_iff.2 ⟨by rw [← whole], (isJson_iff.1 json).2⟩
  rcases (isSlot_baseStep 126).of_readFields hbase with ⟨-, habsent⟩ | ⟨node, d, found, hd, hslot⟩
  · cases habsent
  · cases hslot
    obtain ⟨before, alone, after, hsplit, halone⟩ := spelled.exists_alone found
    refine ⟨members, node, before, alone, after, spelled, found, hsplit, halone, ?_⟩
    rw [parse_eq_ok_iff, (spells_iff.1 halone).1]
    exact ⟨readDocument_deepens _ _ _ hd, rfl⟩

/-! ## Answers -/

/-- A request for the pipeline of a body is answered as the library answers it, unless the body is
too great to be read. -/
theorem Settings.respond_of_accepted {settings : Settings} {request : HttpRequest}
    {body : PipelineBody} (path : Target.path request.target = "/v1/pipeline")
    (method : request.method = "POST") (json : request.contentType.any MediaType.isJson = true)
    (accepted : parse PipelineBody.read request.body = .ok body) :
    settings.respond request =
      if maxBodySize < request.body.utf8ByteSize then .plain 413
      else settings.compiler.answer body := by
  unfold respond
  rw [path]
  simp only [method, Compiler.respond, json, Bool.not_true, Bool.false_eq_true, if_false, accepted]

/-- The settings where no variable is given. -/
def Settings.standard : Settings :=
  ⟨Settings.defaultAddress, .default, []⟩

/-- A request for the pipeline of a body of JSON. -/
def Settings.post (body : String) : HttpRequest :=
  ⟨"POST", "/v1/pipeline", some "application/json", body⟩

theorem Settings.path_post (text : String) : Target.path (post text).target = "/v1/pipeline" :=
  (by decide : Target.path "/v1/pipeline" = "/v1/pipeline")

theorem Settings.isJson_post (text : String) :
    (post text).contentType.any MediaType.isJson = true :=
  (by decide : (some "application/json").any MediaType.isJson = true)

/-- A body of JSON is answered as the library answers it, unless it is too great to be read. -/
theorem Settings.respond_post_of_accepted {settings : Settings} {text : String}
    {body : PipelineBody} (accepted : parse PipelineBody.read text = .ok body) :
    settings.respond (post text) =
      if maxBodySize < text.utf8ByteSize then .plain 413 else settings.compiler.answer body :=
  respond_of_accepted (path_post text) rfl (isJson_post text) accepted

/-- A space is one byte. -/
theorem utf8ByteSize_spaces (n : Nat) :
    (String.ofList (List.replicate n ' ')).utf8ByteSize = n := by
  induction n with
  | zero => rfl
  | succ n ih =>
    rw [List.replicate_succ, String.ofList_cons, String.utf8ByteSize_append, ih,
      String.utf8ByteSize_singleton, Nat.add_comm]
    rfl

/-- A request to compile that does not come as JSON is refused, whatever its body is. -/
theorem Settings.respond_of_not_isJson {settings : Settings} {request : HttpRequest}
    (path : Target.path request.target = "/v1/pipeline") (method : request.method = "POST")
    (other : request.contentType.any MediaType.isJson = false) :
    settings.respond request = .plain 415 := by
  unfold respond
  rw [path]
  simp only [method, Compiler.respond, other, Bool.not_false, if_true]

/-- The service and the library agree. The text of a body reads as its request exactly if it is
JSON, and then the member that is the base predicate reads on its own as this predicate. Any
compiler answers a body that is compiled with the stages and the count document, and one that is
refused with the words of the error as the only member of an object; and so does the service answer
the text, unless it is too great to be read. -/
theorem PipelineBody.agrees_with_request {text : String} {body : PipelineBody}
    (accepted : parse PipelineBody.read text = .ok body) :
    (parse RawRequest.read text = .ok body.request ↔ IsJson text) ∧
    (IsJson text → ∃ members node before alone after, Spells text (.object members) ∧
      members.find? "base" = some node ∧ text = before ++ alone ++ after ∧ Spells alone node ∧
      parse readDocument alone = .ok body.base) ∧
    (∀ (compiler : Compiler) (report : Part → Report),
      (∀ pipeline, compiler.compileRequest body.base body.request = .ok pipeline →
        ∃ answer, (compiler.answer body).status = 200 ∧
          (compiler.answer body).body.write? report = some answer ∧
          answer = writeObject
            [writeMember "pipeline" (writeArray (pipeline.toDocuments.map Document.write)),
              writeMember "count" pipeline.count.write] ∧
          Spells (String.ofList answer) (.object (.ofList
            [("pipeline", .array (.ofList (pipeline.toDocuments.map Document.node))),
              ("count", pipeline.count.node)]))) ∧
      ∀ e, compiler.compileRequest body.base body.request = .error e →
        ∃ words answer, e.Worded report words ∧ e.display report = words ∧
          (compiler.answer body).status = 400 ∧
          (compiler.answer body).body.write? report = some answer ∧
          answer = writeObject [writeMember "error" (writeText words)] ∧
          Spells (String.ofList answer) (.object (.ofList [("error", .ofText words)]))) ∧
    ∀ (settings : Settings) (request : HttpRequest), request.body = text →
      Target.path request.target = "/v1/pipeline" → request.method = "POST" →
      request.contentType.any MediaType.isJson = true →
      settings.respond request =
        if 2097152 < text.utf8ByteSize then .plain 413 else settings.compiler.answer body := by
  refine ⟨parse_request_iff accepted, exists_base accepted, fun compiler report => ⟨?_, ?_⟩, ?_⟩
  · intro pipeline compiled
    rw [Compiler.answer, compiled]
    exact ⟨pipeline.write, rfl, rfl, rfl, pipeline.spells_write⟩
  · intro e failed
    rw [Compiler.answer, failed]
    exact ⟨e.display report, writeRejection (e.display report), CompileError.worded_iff.2 rfl, rfl,
      rfl, rfl, rfl, spells_writeRejection _⟩
  · rintro settings request rfl path method json
    exact Settings.respond_of_accepted path method json accepted

/-- A body whose request has a page, with a member of no meaning before its base predicate; and
bodies that are refused, for a filter without conditions, for a label, for a filter whose text ends
too early and for sort keys that are no list. -/
theorem PipelineBody.agrees_with_request_page_and_refusals :
    let report : Part → Report
      | .filter => ⟨"EOF while parsing an object", "", 1, 2⟩
      | _ => ⟨"", "", 1, 0⟩
    let response (text : String) : HttpResponse := Settings.standard.respond (Settings.post text)
    let answers (text : String) (status : Nat) (answer : String) : Prop :=
      (response text).status = status ∧ (response text).body.write? report = some answer.toList
    let paged := "\x7b\"page\":2,\"other\":[null],\"base\":\x7b\x7d\x7d"
    let page : RawRequest := ⟨none, none, none, none, some "2", none⟩
    parse PipelineBody.read paged = .ok ⟨[], page⟩ ∧ parse RawRequest.read paged = .ok page ∧
      answers paged 200
        "\x7b\"pipeline\":[\x7b\"$match\":\x7b\x7d\x7d,\x7b\"$skip\":10\x7d,\x7b\"$limit\":10\x7d],\"count\":\x7b\x7d\x7d" ∧
      answers "\x7b\"base\":\x7b\x7d,\"filter\":\"[]\"\x7d" 400
        "\x7b\"error\":\"filter must contain at least one condition\"\x7d" ∧
      answers "\x7b\"base\":\x7b\x7d,\"filter\":\"[[\\\"$a\\\",\\\"=\\\"]]\"\x7d" 400
        "\x7b\"error\":\"invalid condition on `$a` (=): label must not start with `$`\"\x7d" ∧
      answers "\x7b\"base\":\x7b\x7d,\"filter\":\"[\x7b\"\x7d" 400
        "\x7b\"error\":\"malformed filter input: EOF while parsing an object at line 1 column 2\"\x7d" ∧
      answers "\x7b\"base\":\x7b\x7d,\"sort\":\"\x7b\x7d\"\x7d" 400
        "\x7b\"error\":\"malformed sort input: invalid type: map, expected a sequence at line 1 column 0\"\x7d" := by
  intro report response answers paged page
  have accepted : parse PipelineBody.read paged = .ok ⟨[], page⟩ := by cbv
  have json : IsJson paged := isJson_iff.2 ⟨by cbv, by cbv⟩
  have compiled : Settings.standard.compiler.compileRequest [] page =
      .ok ⟨[.matching [], .skip 10, .limit 10], []⟩ := by cbv
  have kind : ReadError.display (report .sort) (.mismatch (.wrongKind .map "a sequence")) =
      "invalid type: map, expected a sequence at line 1 column 0" := by decide +kernel
  have answered {text : String} {raw : RawRequest} (small : text.utf8ByteSize ≤ 2097152)
      (accepted : parse PipelineBody.read text = .ok ⟨[], raw⟩) :
      response text = Settings.standard.compiler.answer ⟨[], raw⟩ := by
    obtain ⟨-, -, -, hrespond⟩ := agrees_with_request accepted
    exact (hrespond .standard _ rfl (Settings.path_post _) rfl (Settings.isJson_post _)).trans
      (if_neg (Nat.not_lt.2 small))
  have refused (text answer : String) (raw : RawRequest) (e : CompileError) {words : String}
      (small : text.utf8ByteSize ≤ 2097152) (accepted : parse PipelineBody.read text = .ok ⟨[], raw⟩)
      (failed : Settings.standard.compiler.compileRequest [] raw = .error e)
      (worded : e.Worded report words) (said : writeRejection words = answer.toList) :
      answers text 400 answer := by
    obtain ⟨-, -, hanswer, -⟩ := agrees_with_request accepted
    obtain ⟨_, _, -, rfl, hstatus, hwrite, rfl, -⟩ := (hanswer _ report).2 e failed
    rw [CompileError.worded_iff.1 worded] at hwrite
    refine ⟨answered small accepted ▸ hstatus, answered small accepted ▸ hwrite.trans ?_⟩
    exact congrArg some said
  obtain ⟨hrequest, -, hanswer, -⟩ := agrees_with_request accepted
  obtain ⟨answer, hstatus, hwrite, htext, -⟩ := (hanswer _ report).1 _ compiled
  have hpaged : response paged = _ := answered (by decide) accepted
  refine ⟨accepted, hrequest.2 json, ⟨hpaged ▸ hstatus, ?_⟩, ?_, ?_, ?_, ?_⟩
  · rw [hpaged, hwrite, htext]
    cbv
  · refine refused _ _ ⟨some "[]", none, none, none, none, none⟩ .emptyFilter (by decide) ?_ ?_
      .emptyFilter ?_
    all_goals cbv
  · refine refused _ _ ⟨some "[[\"$a\",\"=\"]]", none, none, none, none, none⟩
      (.invalidCondition "$a" "=" (.label .dollar)) (by decide) ?_ ?_ (.invalidCondition .dollar) ?_
    all_goals cbv
  · refine refused _ _ ⟨some "[\x7b", none, none, none, none, none⟩
      (.unreadable .filter (.fault .ended)) (by decide) ?_ ?_ (.unreadable .filter rfl) ?_
    all_goals cbv
  · refine refused _ _ ⟨none, some "\x7b\x7d", none, none, none, none⟩
      (.unreadable .sort (.mismatch (.wrongKind .map "a sequence"))) (by decide) ?_ ?_
      (.unreadable .sort kind) ?_
    all_goals cbv

/-- A body with so many spaces after it that it is too great is not answered as the library answers
it, and neither is one that does not come as JSON. -/
theorem PipelineBody.great_body_refused :
    let small := "\x7b\"base\":\x7b\x7d\x7d"
    let great := small ++ String.ofList (List.replicate 2097142 ' ')
    let body : PipelineBody := ⟨[], ⟨none, none, none, none, none, none⟩⟩
    IsJson great ∧ parse PipelineBody.read great = .ok body ∧
      Settings.standard.compiler.compileRequest body.base body.request =
        .ok ⟨[.matching [], .skip 0, .limit 10], []⟩ ∧
      Settings.standard.respond (Settings.post great) = .plain 413 ∧
      parse PipelineBody.read small = .ok body ∧
      Settings.standard.respond ⟨"POST", "/v1/pipeline", none, small⟩ = .plain 415 := by
  intro small great body
  have accepted : parse PipelineBody.read small = .ok body := by cbv
  obtain ⟨node, spelled⟩ : IsJson small := isJson_iff.2 ⟨by cbv, by cbv⟩
  have spaces : AllSpace (List.replicate 2097142 ' ') := by
    intro c mem
    rw [List.eq_of_mem_replicate mem]
    rfl
  have spelled' : Spells great node := spelled.append_spaces spaces
  have accepted' : parse PipelineBody.read great = .ok body := by
    rw [spelled'.parse_eq, ← spelled.parse_eq PipelineBody.read, accepted]
  have size : great.utf8ByteSize = 11 + 2097142 := by
    rw [String.utf8ByteSize_append, utf8ByteSize_spaces]
    rfl
  have compiled : Settings.standard.compiler.compileRequest body.base body.request =
      .ok ⟨[.matching [], .skip 0, .limit 10], []⟩ := by cbv
  refine ⟨⟨node, spelled'⟩, accepted', compiled, ?_, accepted,
    Settings.respond_of_not_isJson (Settings.path_post small) rfl rfl⟩
  rw [Settings.respond_post_of_accepted accepted', size]
  exact if_pos (by decide)

end QueryPipeline
