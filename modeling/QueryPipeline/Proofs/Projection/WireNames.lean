import Mathlib
import QueryPipeline.Proofs.Assembly
import QueryPipeline.Proofs.Json.Record
import QueryPipeline.Proofs.Updates

/-!
# The names of a projection that is read

A projection comes from a list of names or from an object of flags (`Projection.read_eq_ok_iff`).
The names of an object are looked at, and a projection made of it has only plain ones
(`Projection.plain_of_ofFlags`); the names of a list are taken as they are
(`Projection.mem_keys_ofNames`). `read_plain_iff` therefore says that a projection that was read has
only plain names exactly if it was not written as a list that holds another, and that the same goes
for the projection of every pipeline that a request compiles to.
-/

namespace QueryPipeline

open Json

namespace Projection

/-! ## Lists of names -/

/-- The names of a projection of a list are those of the list. -/
theorem mem_keys_ofNames {names : List String} {name : String} :
    name ∈ (ofNames names).fields.keys ↔ name ∈ names := by
  rw [fields_ofNames, Keyed.mem_keys_ofUpdates]
  simp [Keyed.keys]

/-! ## Objects of flags -/

/-- A projection of flags has only plain names. -/
theorem plain_of_ofFlags {flags : Document} {projection : Projection}
    (h : ofFlags flags = .ok projection) : ∀ name ∈ projection.fields.keys, IsPlainName name := by
  refine foldlM_preserves (P := fun p => ∀ name ∈ p.fields.keys, IsPlainName name) ?_ ?_ h
  · intro p entry added hp hadd name hname
    obtain ⟨included, -, plain, rfl⟩ := addFlag_eq_ok_iff.1 hadd
    rcases Keyed.mem_keys_put.1 hname with rfl | hname
    · exact plain
    · exact hp name hname
  · exact fun _ hname => absurd hname List.not_mem_nil

/-! ## Reading -/

/-- A projection is read from a list of names, or else from an object of flags. -/
theorem read_eq_ok_iff {room : Nat} {node : Node} {projection : Projection} :
    read room node = .ok projection ↔ node.check room = .ok () ∧
      ((∃ names, readList readText room node = .ok names ∧ ofNames names = projection) ∨
        (∀ names, readList readText room node ≠ .ok names) ∧
          ∃ flags, readDocument room node = .ok flags ∧ ofFlags flags = .ok projection) := by
  rw [read, bind_eq_ok_iff, Unique.exists_iff]
  refine and_congr_right fun _ => ?_
  cases hnames : readList readText room node with
  | ok names => simp [pure_eq_ok_iff]
  | error e =>
    cases hflags : readDocument room node with
    | error e' => simp [refuse]
    | ok flags =>
      cases hprojection : ofFlags flags with
      | error e' => simp [orRefused, hprojection, refuse]
      | ok p => simp [orRefused, hprojection]

/-- A projection that is read has only plain names exactly if it is not a list that holds another
name. -/
theorem plain_iff_of_read {room : Nat} {node : Node} {projection : Projection}
    (h : read room node = .ok projection) :
    (∀ name ∈ projection.fields.keys, IsPlainName name) ↔
      ∀ names, readList readText room node = .ok names → ∀ name ∈ names, IsPlainName name := by
  obtain ⟨-, ⟨names, hnames, rfl⟩ | ⟨hlist, flags, -, hflags⟩⟩ := read_eq_ok_iff.1 h
  · simp [mem_keys_ofNames, hnames]
  · constructor
    · exact fun _ names hnames => absurd hnames (hlist names)
    · exact fun _ => plain_of_ofFlags hflags

/-- The document of a projection has the projection's names. -/
theorem mem_keys_toDocument {projection : Projection} {name : String} :
    name ∈ Keyed.keys projection.toDocument ↔ name ∈ projection.fields.keys := by
  rw [toDocument, Keyed.mem_keys_ofUpdates]
  simp [Keyed.keys]

end Projection

/-! ## Requests -/

/-- The projection is what the member "fields" of a request writes. -/
theorem RequestDraft.isSlot_fields (room : Nat) :
    IsSlot (field room) "fields" (readOptional Projection.read room) RequestDraft.fields where
  own s node s' h := by
    obtain ⟨absent, fields, hfields, rfl⟩ := FieldStep.run_once_eq_ok_iff.1 h
    exact ⟨absent, fields, hfields, rfl⟩
  other n s node s' hn h := by
    -- The member is the slot's own, one that is passed over, or writes another part.
    unfold field at h
    split at h <;> first
      | exact absurd rfl hn
      | rw [FieldStep.eq_of_run_pass h]
      | obtain ⟨-, _, -, rfl⟩ := FieldStep.run_once_eq_ok_iff.1 h
        rfl

/-- The place of the projection in a request: the member "fields" of an object, or the fourth
element of an array. -/
def RawRequest.fieldsNode? : Node → Option Node
  | .object members => members.find? "fields"
  | .array items => items.get? 3
  | _ => none

/-- The projection of a request is read where the request has its fields. -/
theorem RawRequest.read_fields {room : Nat} {node : Node} {raw : RawRequest}
    {projection : Projection} (h : read (room + 1) node = .ok raw)
    (hfields : raw.fields = some projection) :
    ∃ part, fieldsNode? node = some part ∧ Projection.read room part = .ok projection := by
  rcases readRecord_eq_ok_iff.1 h with ⟨items, rest, rfl, hparts, -⟩ | ⟨members, rfl, hmembers⟩
  · simp only [bind_eq_ok_iff] at hparts
    obtain ⟨⟨_, _⟩, h₁, ⟨_, _⟩, h₂, ⟨_, _⟩, h₃, ⟨fields, _⟩, h₄, _, -, _, -, hraw⟩ := hparts
    obtain ⟨_, rfl, -⟩ := Items.nextOrRefuse_eq_ok_iff.1 h₁
    obtain ⟨_, rfl, -⟩ := Items.nextOrRefuse_eq_ok_iff.1 h₂
    obtain ⟨_, rfl, -⟩ := Items.nextOrRefuse_eq_ok_iff.1 h₃
    obtain ⟨part, rfl, hread⟩ := Items.nextOrRefuse_eq_ok_iff.1 h₄
    cases pure_eq_ok_iff.1 hraw
    have hsome : fields = some projection := hfields
    exact ⟨part, rfl, readOptional_eq_some (hsome ▸ hread)⟩
  · obtain ⟨draft, hdraft, hraw⟩ := bind_eq_ok_iff.1 hmembers
    obtain rfl := pure_eq_ok_iff.1 hraw
    rcases (RequestDraft.isSlot_fields room).of_readFields hdraft with
      ⟨-, habsent⟩ | ⟨part, fields, hpart, hread, hslot⟩
    · simp [RequestDraft.request, habsent, RequestDraft.empty] at hfields
    · have hsome : fields = some projection := by
        simpa [RequestDraft.request, hslot] using hfields
      exact ⟨part, hpart, readOptional_eq_some (hsome ▸ hread)⟩

/-- A projection that is read has only plain names exactly if its text is not a list that holds
another name, and the projection that a request compiles to has only plain names exactly if the
request's fields are not such a list. -/
theorem read_plain_iff (text : String) :
    (∀ projection, parse Projection.read text = .ok projection →
      ((∀ name ∈ projection.fields.keys, IsPlainName name) ↔
        ∀ names, parse (readList readText) text = .ok names → ∀ name ∈ names, IsPlainName name)) ∧
    ∀ (compiler : Compiler) (base : Document) (raw : RawRequest) (pipeline : CompiledPipeline)
      (body : Document), parse RawRequest.read text = .ok raw →
      compiler.compileRequest base raw = .ok pipeline → .project body ∈ pipeline.stages →
      ∃ part, RawRequest.fieldsNode? (scan text).node = some part ∧
        ((∀ key ∈ Keyed.keys body, IsPlainName key) ↔
          ∀ names, readList readText (maxDepth - 1) part = .ok names →
            ∀ name ∈ names, IsPlainName name) := by
  constructor
  · intro projection h
    obtain ⟨hread, whole⟩ := parse_eq_ok_iff.1 h
    simp only [parse_eq_ok_iff, whole, and_true]
    exact Projection.plain_iff_of_read hread
  · intro compiler base raw pipeline body hraw hcompiled hbody
    obtain ⟨hread, -⟩ := parse_eq_ok_iff.1 hraw
    obtain ⟨filter, sort, group, -, -, -, rfl⟩ := Compiler.compileRequest_eq_ok_iff.1 hcompiled
    obtain ⟨projection, hfields, -, rfl⟩ := project_mem_stages_assemble.1 hbody
    obtain ⟨part, hpart, hprojection⟩ := RawRequest.read_fields hread hfields
    refine ⟨part, hpart, ?_⟩
    simp only [Projection.mem_keys_toDocument]
    exact Projection.plain_iff_of_read hprojection

/-- A request whose fields are a list of plain names. -/
theorem read_plain_iff_plain_list :
    let compiler : Compiler := ⟨.noop, .default⟩
    let text := "\x7b\"fields\":[\"name\",\"_id\"]\x7d"
    let body : Document := [("name", .int32 1), ("_id", .int32 1)]
    let raw : RawRequest :=
      ⟨none, none, none, some ⟨[("name", true), ("_id", true)]⟩, none, none⟩
    let pipeline : CompiledPipeline :=
      ⟨[.matching [], .project body, .skip 0, .limit 10], []⟩
    parse RawRequest.read text = .ok raw ∧ compiler.compileRequest [] raw = .ok pipeline ∧
      ∀ key ∈ Keyed.keys body, IsPlainName key := by
  intro compiler text body raw pipeline
  have hread : parse RawRequest.read text = .ok raw := by cbv
  have hcompiled : compiler.compileRequest [] raw = .ok pipeline := by cbv
  have hbody : .project body ∈ pipeline.stages := .tail _ (.head _)
  obtain ⟨part, hpart, hplain⟩ :=
    (read_plain_iff text).2 compiler [] raw pipeline body hread hcompiled hbody
  have hnode : RawRequest.fieldsNode? (scan text).node = some (.array
      (.cons (.string (.text "name")) (.cons (.string (.text "_id")) .closed))) := by cbv
  cases hpart.symm.trans hnode
  refine ⟨hread, hcompiled, hplain.2 fun names hnames => ?_⟩
  cases hnames
  decide

/-- A list is read whatever names it holds, and its names reach the pipeline. -/
theorem read_operator_name :
    let compiler : Compiler := ⟨.noop, .default⟩
    let projection : Projection := ⟨[("$where", true)]⟩
    let body : Document := [("$where", .int32 1)]
    let raw : RawRequest := ⟨none, none, none, some projection, none, none⟩
    let pipeline : CompiledPipeline := ⟨[.matching [], .project body, .skip 0, .limit 10], []⟩
    parse Projection.read "[\"$where\"]" = .ok projection ∧
      (¬ ∀ name ∈ projection.fields.keys, IsPlainName name) ∧
      parse RawRequest.read "\x7b\"fields\":[\"$where\"]\x7d" = .ok raw ∧
      compiler.compileRequest [] raw = .ok pipeline ∧
      ¬ ∀ key ∈ Keyed.keys body, IsPlainName key := by
  intro compiler projection body raw pipeline
  have hprojection : parse Projection.read "[\"$where\"]" = .ok projection := by cbv
  have hraw : parse RawRequest.read "\x7b\"fields\":[\"$where\"]\x7d" = .ok raw := by cbv
  have hcompiled : compiler.compileRequest [] raw = .ok pipeline := by cbv
  exact ⟨hprojection, by decide, hraw, hcompiled, by decide⟩

end QueryPipeline
