import Mathlib
import QueryPipeline.Proofs.Json.Fields
import QueryPipeline.Proofs.Json.Quantity
import QueryPipeline.Proofs.Service.Window

/-!
# Page numbers in requests

A page and its size may be given as a number or as a text. A whole number is read as its digits
(`readTextOrNumber_ofInteger`) and the digits are read as the number again
(`Pagination.number?_integer`), so both spellings give one request, and with it one pipeline. The
other members do not notice whether the part is given (`PagePart.field_fill`), so a request in which
it is given is the one in which it is missing, with its text (`PagePart.readMembers_given`).
`RawRequest.read_page_number_or_text` puts these together.
-/

namespace QueryPipeline

open Json

/-! ## Digits -/

/-- A whole number is read as its digits. -/
theorem readTextOrNumber_ofInteger {n : Int} (low : -2 ^ 63 ≤ n) (high : n < 2 ^ 63) (room : Nat) :
    readTextOrNumber room (.number (.ofInteger n)) = .ok (String.ofList (Text.integer n)) := by
  have read := read_ofInteger (n := n) (by omega) (by omega)
  have text : (Quantity.whole n).text = String.ofList (Text.integer n) := if_pos high
  simp only [readTextOrNumber, Node.check, read, orFault, Except.map, bind, Except.bind, pure,
    Except.pure, text]

namespace Pagination

/-- The digits of a number of 64 bits denote it. -/
theorem number?_integer {n : Int} (low : -2 ^ 63 ≤ n) (high : n < 2 ^ 63) :
    number? (some (String.ofList (Text.integer n))) = some (Int64.ofInt n) := by
  have digits := Text.integer?_eq_some_iff.1 (Text.integer?_integer n)
  have value : (Int64.ofInt n).toInt = n := Int64.toInt_ofInt_of_le low high
  rw [number?_eq_some_iff, value]
  exact .mk (String.toList_ofList ▸ digits.trimmed) digits

/-- The digits of a number that counts give it, and those of any other the default. -/
theorem toInt_getD_integer {n : Int} (low : -2 ^ 63 ≤ n) (high : n < 2 ^ 63) (p : Int64 → Bool)
    (default : Int64) :
    (((number? (some (String.ofList (Text.integer n)))).filter p).getD default).toInt =
      if p (Int64.ofInt n) then n else default.toInt := by
  rw [number?_integer low high, Option.filter_some]
  split
  · exact Int64.toInt_ofInt_of_le low high
  · rfl

end Pagination

/-! ## The two numbers of a page -/

/-- A number of a page that a request may give. -/
inductive PagePart where
  | page
  | size

namespace PagePart

/-- The name of the member. -/
def name : PagePart → String
  | page => "page"
  | size => "page_size"

/-- What a draft holds of the part. -/
def ofDraft : PagePart → RequestDraft → Option (Option String)
  | page => RequestDraft.page
  | size => RequestDraft.pageSize

/-- A draft with the part given. -/
def fill : PagePart → Option String → RequestDraft → RequestDraft
  | page, text, draft => { draft with page := some text }
  | size, text, draft => { draft with pageSize := some text }

/-- The text of the part in a request. -/
def text : PagePart → RawRequest → Option String
  | page => RawRequest.page
  | size => RawRequest.pageSize

/-- A request with another text of the part. -/
def set : PagePart → Option String → RawRequest → RawRequest
  | page, text, raw => { raw with page := text }
  | size, text, raw => { raw with pageSize := text }

/-- The part of a pagination. -/
def number : PagePart → Pagination → Int64
  | page => Pagination.page
  | size => Pagination.pageSize

/-- What a number means as the part: a page that is negative is no page, and a size that is not
positive is the default. -/
def meant : PagePart → Int → Int → Int
  | page, n, _ => if 0 ≤ n then n else 0
  | size, n, default => if 0 < n then n else default

/-- The object of a request with the part between other members, or without it. -/
def object (part : PagePart) (before : List (Quoted × Node)) (value : Option Node)
    (after : List (Quoted × Node)) : Node :=
  .object (.ofQuoted (before ++
    ((value.map fun node => (.text part.name, node)).toList ++ after)))

variable {part : PagePart} {before after : List (Quoted × Node)} {room : Nat}

/-- The digits of a part are read as what the number means. -/
theorem toInt_number_ofTexts {raw : RawRequest} {n : Int} (low : -2 ^ 63 ≤ n) (high : n < 2 ^ 63)
    (h : part.text raw = some (String.ofList (Text.integer n))) (default : Int64) :
    (part.number (Pagination.ofTexts raw.page raw.pageSize default)).toInt =
      part.meant n default.toInt := by
  have value : (Int64.ofInt n).toInt = n := Int64.toInt_ofInt_of_le low high
  cases part with
  | page =>
    have hpage : raw.page = some (String.ofList (Text.integer n)) := h
    rw [number, Pagination.ofTexts, hpage]
    dsimp only
    rw [Pagination.toInt_getD_integer low high]
    simp [Int64.le_iff_toInt_le, value, meant]
  | size =>
    have hsize : raw.pageSize = some (String.ofList (Text.integer n)) := h
    rw [number, Pagination.ofTexts, hsize]
    dsimp only
    rw [Pagination.toInt_getD_integer low high]
    simp [Int64.lt_iff_toInt_lt, value, meant]

/-! ## Objects that give a part -/

/-- The part is what the members of its name write. -/
theorem isSlot (part : PagePart) (room : Nat) :
    IsSlot (RequestDraft.field room) part.name (readOptional readTextOrNumber room)
      part.ofDraft where
  own draft node draft' h := by
    cases part with
    | page | size =>
      obtain ⟨absent, text, htext, rfl⟩ := FieldStep.run_once_eq_ok_iff.1 h
      exact ⟨absent, text, htext, rfl⟩
  other n draft node draft' hn h := by
    unfold RequestDraft.field at h
    cases part with
    | page | size =>
      split at h <;> first
        | exact absurd rfl hn
        | rw [FieldStep.eq_of_run_pass h]
        | obtain ⟨-, _, -, rfl⟩ := FieldStep.run_once_eq_ok_iff.1 h
          rfl

/-- A member of another name does not notice whether the part is given. -/
theorem field_fill (part : PagePart) (room : Nat) (text : Option String) {n : String}
    (hn : n ≠ part.name) (draft : RequestDraft) (node : Node) :
    (RequestDraft.field room n (part.fill text draft)).run (part.fill text draft) node =
      ((RequestDraft.field room n draft).run draft node).map (part.fill text) := by
  unfold RequestDraft.field
  cases part with
  | page | size =>
    split <;> first
      | exact absurd rfl hn
      | exact FieldStep.run_pass_map
      | exact FieldStep.run_once_map fun _ => rfl

/-- Two values of the part that are read alike make objects that are read alike. -/
theorem readMembers_congr {node node' : Node}
    (h : readOptional readTextOrNumber room node = readOptional readTextOrNumber room node') :
    RawRequest.readMembers room (.ofQuoted (before ++ (.text part.name, node) :: after)) =
      RawRequest.readMembers room (.ofQuoted (before ++ (.text part.name, node') :: after)) := by
  have step (draft : RequestDraft) : (RequestDraft.field room part.name draft).run draft node =
      (RequestDraft.field room part.name draft).run draft node' := by
    cases part with
    | page | size => simp only [name, RequestDraft.field, FieldStep.run_once, h]
  simp only [RawRequest.readMembers, Members.readFields_append_cons, step]

/-- A request whose part is read has the text that the part is read as. -/
theorem text_of_readMembers {node : Node} {raw : RawRequest} {t : Option String}
    (read : readOptional readTextOrNumber room node = .ok t)
    (h : RawRequest.readMembers room (.ofQuoted (before ++ (.text part.name, node) :: after)) =
      .ok raw) : part.text raw = t := by
  obtain ⟨draft, hdraft, hraw⟩ := bind_eq_ok_iff.1 h
  rw [Members.readFields_append_cons] at hdraft
  obtain ⟨s, -, hdraft⟩ := bind_eq_ok_iff.1 hdraft
  obtain ⟨s', hrun, hafter⟩ := bind_eq_ok_iff.1 hdraft
  obtain ⟨-, t', ht', hs'⟩ := (part.isSlot room).own s node s' hrun
  obtain rfl : t = t' := Except.ok.inj (read.symm.trans ht')
  have held := (part.isSlot room).kept hafter hs'
  cases pure_eq_ok_iff.1 hraw
  cases part with
  | page | size => exact congrArg Option.join held

/-- Members of other names leave the part as it was. -/
theorem ofDraft_of_readFields {members : List (Quoted × Node)}
    (h : ∀ member ∈ members, member.1 ≠ .text part.name) {draft draft' : RequestDraft}
    (read : (Members.ofQuoted members).readFields (RequestDraft.field room) draft = .ok draft') :
    part.ofDraft draft' = part.ofDraft draft := by
  rcases (part.isSlot room).of_readFields read with ⟨-, same⟩ | ⟨_, _, found, -⟩
  · exact same
  · rw [Members.find?_ofQuoted_eq_none h] at found
    cases found

/-- A request in which the part is missing has no text of it. -/
theorem text_of_missing (once : ∀ member ∈ before ++ after, member.1 ≠ .text part.name)
    {raw : RawRequest}
    (h : RawRequest.readMembers room (.ofQuoted (before ++ after)) = .ok raw) :
    part.text raw = none := by
  obtain ⟨draft, hdraft, hraw⟩ := bind_eq_ok_iff.1 h
  have free := ofDraft_of_readFields once hdraft
  cases pure_eq_ok_iff.1 hraw
  cases part with
  | page | size => exact congrArg Option.join free

/-- A request in which the part is given is read as the one in which it is missing, with the text
of the part. -/
theorem readMembers_given (once : ∀ member ∈ before ++ after, member.1 ≠ .text part.name)
    {node : Node} {t : Option String} (read : readOptional readTextOrNumber room node = .ok t) :
    RawRequest.readMembers room (.ofQuoted (before ++ (.text part.name, node) :: after)) =
      (RawRequest.readMembers room (.ofQuoted (before ++ after))).map (part.set t) := by
  obtain ⟨hbefore, hafter⟩ := List.forall_mem_append.1 once
  rw [RawRequest.readMembers, RawRequest.readMembers, Members.readFields_append_cons,
    Members.readFields_append]
  cases hs : (Members.ofQuoted before).readFields (RequestDraft.field room) .empty with
  | error e => rfl
  | ok s =>
    have free : part.ofDraft s = none := by
      rw [ofDraft_of_readFields hbefore hs]
      cases part <;> rfl
    have filled : (RequestDraft.field room part.name s).run s node = .ok (part.fill t s) := by
      cases part with
      | page | size => exact FieldStep.run_once_eq_ok_iff.2 ⟨free, t, read, rfl⟩
    have later := Members.readFields_map (fun _ hn => part.field_fill room t hn) hafter s
    show (RequestDraft.field room part.name s).run s node >>= _ >>= _ = _
    rw [filled]
    show (Members.ofQuoted after).readFields (RequestDraft.field room) (part.fill t s) >>= _ =
      ((Members.ofQuoted after).readFields (RequestDraft.field room) s >>= _).map _
    rw [later]
    cases (Members.ofQuoted after).readFields (RequestDraft.field room) s with
    | error e => rfl
    | ok draft => cases part <;> rfl

/-- A part that is null is read as one that is missing. -/
theorem readMembers_null (once : ∀ member ∈ before ++ after, member.1 ≠ .text part.name) :
    RawRequest.readMembers room (.ofQuoted (before ++ (.text part.name, .null) :: after)) =
      RawRequest.readMembers room (.ofQuoted (before ++ after)) := by
  rw [readMembers_given once (t := none) rfl]
  cases hraw : RawRequest.readMembers room (.ofQuoted (before ++ after)) with
  | error e => rfl
  | ok raw =>
    obtain ⟨filter, sort, aggregation, fields, page, pageSize⟩ := raw
    have missing := text_of_missing once hraw
    cases part with
    | page =>
      obtain rfl : page = none := missing
      rfl
    | size =>
      obtain rfl : pageSize = none := missing
      rfl

end PagePart

/-! ## Texts of requests -/

/-- A whole number that may be null is read as its digits. -/
theorem readOptional_ofInteger {n : Int} (low : -2 ^ 63 ≤ n) (high : n < 2 ^ 63) (room : Nat) :
    readOptional readTextOrNumber room (.number (.ofInteger n)) =
      .ok (some (String.ofList (Text.integer n))) := by
  rw [readOptional, readTextOrNumber_ofInteger low high]
  · rfl
  · exact nofun

/-- A page and its size mean the same written as a number and as the text of its digits, whatever
the other members of the request are: both texts give one request, which holds the number if it
counts and the default otherwise, and one pipeline, which ends with the window of that page. Where
no other member is of that name, a request that is read without the part is read with the number,
and a part that is null is as good as one that is missing. -/
theorem RawRequest.read_page_number_or_text (part : PagePart)
    (before after : List (Quoted × Node)) :
    (∀ (n : Int) (number quoted : String), -2 ^ 63 ≤ n → n < 2 ^ 63 →
      Spells number (part.object before (some (.number (.ofInteger n))) after) →
      Spells quoted (part.object before (some (.ofText (String.ofList (Text.integer n)))) after) →
      parse read number = parse read quoted ∧
      (∀ (compiler : Compiler) (base : Document),
        (parse read number).map (compiler.compileRequest base) =
          (parse read quoted).map (compiler.compileRequest base)) ∧
      ∀ raw, parse read number = .ok raw → ∀ compiler : Compiler,
        let default := compiler.options.defaultPageSize
        let p := Pagination.ofTexts raw.page raw.pageSize default
        (part.number p).toInt = part.meant n default.toInt ∧
        ∀ base pipeline, compiler.compileRequest base raw = .ok pipeline →
          ∃ rest, pipeline.stages = rest ++ [.skip p.skip, .limit p.pageSize]) ∧
    ∀ missing : String, (∀ member ∈ before ++ after, member.1 ≠ .text part.name) →
      Spells missing (part.object before none after) →
      (∀ (n : Int) (number : String), -2 ^ 63 ≤ n → n < 2 ^ 63 →
        Spells number (part.object before (some (.number (.ofInteger n))) after) →
        parse read number =
          (parse read missing).map (part.set (some (String.ofList (Text.integer n))))) ∧
      ∀ null, Spells null (part.object before (some .null) after) →
        parse read null = parse read missing := by
  constructor
  · intro n number quoted low high hnumber hquoted
    have hread := readOptional_ofInteger low high (maxDepth - 1)
    have same : parse read number = parse read quoted := by
      rw [hnumber.parse_eq, hquoted.parse_eq]
      exact part.readMembers_congr hread
    refine ⟨same, fun compiler base => by rw [same], fun raw hraw compiler => ⟨?_, ?_⟩⟩
    · rw [hnumber.parse_eq] at hraw
      exact part.toInt_number_ofTexts low high (part.text_of_readMembers hread hraw) _
    · intro base pipeline compiled
      obtain ⟨filter, sort, group, -, -, -, rfl⟩ := Compiler.compileRequest_eq_ok_iff.1 compiled
      obtain ⟨rest, -, hstages⟩ := exists_stages_assemble_eq_window base
        ⟨filter, raw.fields, group, sort, raw.page, raw.pageSize⟩ compiler.options.defaultPageSize
      exact ⟨rest, hstages⟩
  · intro missing once hmissing
    constructor
    · intro n number low high hnumber
      rw [hnumber.parse_eq, hmissing.parse_eq]
      exact part.readMembers_given once (readOptional_ofInteger low high (maxDepth - 1))
    · intro null hnull
      rw [hnull.parse_eq, hmissing.parse_eq]
      exact part.readMembers_null once

/-- The least number of 64 bits as the size of a page, after a member that a request does not
take. -/
theorem RawRequest.read_page_number_or_text_least :
    let number := "\x7b\"x\":[1e999],\"page_size\":-9223372036854775808\x7d"
    let quoted := "\x7b\"x\":[1e999],\"page_size\":\"\\u002d9223372036854775808\"\x7d"
    let null := "\x7b\"x\":[1e999],\"page_size\":null\x7d"
    let missing := "\x7b\"x\":[1e999]\x7d"
    let compiler : Compiler := ⟨.noop, ⟨.ignore, 25⟩⟩
    let raw : RawRequest := ⟨none, none, none, none, none, some "-9223372036854775808"⟩
    let p := Pagination.ofTexts raw.page raw.pageSize compiler.options.defaultPageSize
    let pipeline : CompiledPipeline := ⟨[.matching [], .skip 0, .limit 25], []⟩
    parse read number = .ok raw ∧ parse read quoted = .ok raw ∧ p.pageSize.toInt = 25 ∧
      compiler.compileRequest [] raw = .ok pipeline ∧
      (∃ rest, pipeline.stages = rest ++ [.skip p.skip, .limit p.pageSize]) ∧
      parse read number = (parse read missing).map (PagePart.size.set raw.pageSize) ∧
      parse read null = parse read missing := by
  intro number quoted null missing compiler raw p pipeline
  let before : List (Quoted × Node) := [(.text "x", .array (.cons
    (.number (.written ⟨false, ['1'], [], some (false, ['9', '9', '9'])⟩)) .closed))]
  obtain ⟨spelling, absence⟩ := read_page_number_or_text .size before []
  have hnumber : Spells number
      (PagePart.size.object before (some (.number (.ofInteger (-9223372036854775808)))) []) :=
    spells_iff.2 ⟨by cbv, rfl⟩
  have digits : String.ofList (Text.integer (-9223372036854775808)) = "-9223372036854775808" := rfl
  have hquoted : Spells quoted (PagePart.size.object before
      (some (.ofText (String.ofList (Text.integer (-9223372036854775808))))) []) := by
    rw [digits]
    exact spells_iff.2 ⟨by cbv, rfl⟩
  have hnull : Spells null (PagePart.size.object before (some .null) []) :=
    spells_iff.2 ⟨by cbv, rfl⟩
  have hmissing : Spells missing (PagePart.size.object before none []) :=
    spells_iff.2 ⟨by cbv, rfl⟩
  obtain ⟨same, -, meant⟩ := spelling _ number quoted (by decide) (by decide) hnumber hquoted
  have hread : parse read number = .ok raw := by
    rw [hnumber.parse_eq]
    rfl
  obtain ⟨hsize, hstages⟩ := meant raw hread compiler
  have hcompiled : compiler.compileRequest [] raw = .ok pipeline := by rfl
  obtain ⟨given, absent⟩ := absence missing (by decide) hmissing
  exact ⟨hread, same ▸ hread, hsize, hcompiled, hstages [] pipeline hcompiled,
    given _ number (by decide) (by decide) hnumber, absent null hnull⟩

end QueryPipeline
