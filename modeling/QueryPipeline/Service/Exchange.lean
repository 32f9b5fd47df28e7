import QueryPipeline.Service.MediaType
import QueryPipeline.Service.Settings
import QueryPipeline.Service.Target
import QueryPipeline.Value.Write

/-!
# Requests to the service and its answers

The service has two paths: one tells that it lives, the other compiles a request that comes with
its base predicate in the body. `Settings.respond` is the answer to a request. The body is read in
one pass, in which the base predicate is read as a document and each other member as any value;
then the request is taken from the members.
-/

namespace QueryPipeline

open Json

/-- A request to the service. -/
structure HttpRequest where
  method : String
  target : String
  contentType : Option String
  body : String

/-- What an answer carries. -/
inductive ResponseBody where
  /-- Nothing of the service's own. -/
  | none
  /-- JSON of no length, in answer to a request for the head alone. -/
  | headOnly
  | healthy
  | compiled (pipeline : CompiledPipeline)
  | rejected (error : CompileError)

/-- An answer of the service. -/
structure HttpResponse where
  status : Nat
  body : ResponseBody

/-! ## The body of a request -/

/-- A request together with the predicate that it works under. -/
structure PipelineBody where
  base : Document
  request : RawRequest

/-- What is done with a member of a body: the base predicate is read, another member is checked. -/
def baseStep (room : Nat) (name : String) (base : Option Document) : FieldStep (Option Document) :=
  match name with
  | "base" => .once base "base" fun node => (readDocument room node).map some
  | _ => .read fun node => (node.check room).map fun _ => base

/-- What is done with a member of a body once the base predicate is read: that one is left alone,
another one is a member of the request. -/
def requestStep (room : Nat) (name : String) (draft : RequestDraft) : FieldStep RequestDraft :=
  match name with
  | "base" => .read fun _ => .ok draft
  | _ => RequestDraft.field room name draft

/-- Reads a body. -/
def PipelineBody.read : Reader PipelineBody
  | 0, .object _ => malformed
  | room + 1, .object members => do
    match ← members.readFields (baseStep room) none with
    | none => refuse (.missingField "base")
    | some base => return ⟨base, (← members.readFields (requestStep room) .empty).request⟩
  | _, node => wrongKind "struct PipelineBody" node

/-! ## Answers -/

/-- The answer without a body of the service's own. -/
def HttpResponse.plain (status : Nat) : HttpResponse := ⟨status, .none⟩

/-- The greatest body that is read, in bytes. -/
def maxBodySize : Nat := 2 * 1024 * 1024

/-- The answer to a body that is compiled or rejected. -/
def Compiler.answer (compiler : Compiler) (body : PipelineBody) : HttpResponse :=
  match compiler.compileRequest body.base body.request with
  | .ok pipeline => ⟨200, .compiled pipeline⟩
  | .error e => ⟨400, .rejected e⟩

/-- The answer to a request to compile. -/
def Compiler.respond (compiler : Compiler) (request : HttpRequest) : HttpResponse :=
  if !(request.contentType.any MediaType.isJson) then .plain 415
  else if maxBodySize < request.body.utf8ByteSize then .plain 413
  else
    match parse PipelineBody.read request.body with
    | .ok body => compiler.answer body
    | .error (.fault _) => .plain 400
    | .error (.mismatch _) => .plain 422

/-- The answer to a request. -/
def Settings.respond (settings : Settings) (request : HttpRequest) : HttpResponse :=
  match Target.path request.target with
  | "/healthz" =>
    match request.method with
    | "GET" => ⟨200, .healthy⟩
    | "HEAD" => ⟨200, .headOnly⟩
    | _ => .plain 405
  | "/v1/pipeline" =>
    match request.method with
    | "POST" => settings.compiler.respond request
    | _ => .plain 405
  | _ => .plain 404

/-! ## The text of answers -/

/-- The text of a rejection. -/
def writeRejection (message : String) : List Char :=
  writeSingle "error" (writeText message)

/-- The text of a compiled pipeline. -/
def CompiledPipeline.write (pipeline : CompiledPipeline) : List Char :=
  writeObject [writeMember "pipeline" (writeArray (pipeline.toDocuments.map Document.write)),
    writeMember "count" pipeline.count.write]

/-- The text of what an answer carries, where `report` is what the libraries that read JSON say of
the text of each part. -/
def ResponseBody.write? (report : Part → Report) : ResponseBody → Option (List Char)
  | .none => .none
  | .headOnly => some []
  | .healthy => some (writeSingle "status" (writeText "ok"))
  | .compiled pipeline => some pipeline.write
  | .rejected e => some (writeRejection (e.display report))

/-- The text of what an answer carries, where the libraries that read JSON have no part in it. -/
def ResponseBody.text? : ResponseBody → Option (List Char)
  | .rejected (.unreadable _ _) => .none
  | body => body.write? fun _ => default

end QueryPipeline
