import QueryPipeline.Proofs.Json.Record
import QueryPipeline.Value.Read

/-!
# The members of an object that is read

An object is read as a value member by member. A member that announces code or another value of a
kind of its own makes that value, and beside it only the scope of code may stand in the object; any
other member is an entry of a document. `ReadsMember` lists these forms, one by one
(`readMembers_cons_eq_ok_iff`). What is proved of values that are read goes through them.
-/

namespace QueryPipeline

open Json

/-- What the members from one member on are read as, after the entries of those before it. -/
inductive ReadsMember (room : Nat) (entries : Document) : Quoted → Node → Members → Value → Prop
  | code {value : Node} {text : String} (source : readText room value = .ok text) :
    ReadsMember room entries (.text "$code") value .closed (.code text)
  | codeFirst {value value' : Node} {text : String} {scope : Document}
    (source : readText room value = .ok text) (bindings : readScope room value' = .ok scope) :
    ReadsMember room entries (.text "$code") value (.cons (.text "$scope") value' .closed)
      (.codeWithScope text scope)
  | scopeFirst {value value' : Node} {text : String} {scope : Document}
    (bindings : readScope room value = .ok scope) (source : readText room value' = .ok text) :
    ReadsMember room entries (.text "$scope") value (.cons (.text "$code") value' .closed)
      (.codeWithScope text scope)
  | typed {name : String} {value : Node} {reader : Reader Value} {v : Value}
    (code : name ≠ "$code") (scope : name ≠ "$scope") (announced : typedReader? name = some reader)
    (read : reader room value = .ok v) :
    ReadsMember room entries (.text name) value .closed v
  | entry {name : String} {value : Node} {tail : Members} {v w : Value}
    (code : name ≠ "$code") (scope : name ≠ "$scope") (plain : typedReader? name = none)
    (read : readValue room value = .ok w)
    (rest : readMembers room (entries.put name w) tail = .ok v) :
    ReadsMember room entries (.text name) value tail v

section
variable {room : Nat} {entries : Document} {key : Quoted} {value node : Node} {tail : Members}
  {v : Value} {d : Document}

/-- Members of which nothing is left over are none. -/
theorem Json.Members.finish_map_eq_ok_iff {α : Type} {members : Members} {a b : α} :
    (members.finish.map fun _ => a) = .ok b ↔ members = .closed ∧ a = b := by
  rw [map_eq_ok_iff, Unique.exists_iff, Members.finish_eq_ok_iff]

/-- Members that are read are of one of the forms. -/
theorem readsMember_of_readMembers (h : readMembers room entries (.cons key value tail) = .ok v) :
    ReadsMember room entries key value tail v := by
  unfold readMembers at h
  split at h
  next => cases h
  next hkey =>
    cases Quoted.read_eq_ok_iff.1 hkey
    split at h
    next => cases h
    next text source =>
      split at h
      next =>
        cases h
        exact .code source
      next => cases h
      next => cases h
      next key' value' rest =>
        split at h
        next => cases h
        next hkey' =>
          cases Quoted.read_eq_ok_iff.1 hkey'
          split at h
          next => cases h
          next scope bindings =>
            obtain ⟨rfl, rfl⟩ := Members.finish_map_eq_ok_iff.1 h
            exact .codeFirst source bindings
        next => cases h
  next hkey =>
    cases Quoted.read_eq_ok_iff.1 hkey
    split at h
    next => cases h
    next scope bindings =>
      split at h
      next => cases h
      next => cases h
      next => cases h
      next key' value' rest =>
        split at h
        next => cases h
        next hkey' =>
          cases Quoted.read_eq_ok_iff.1 hkey'
          split at h
          next => cases h
          next text source =>
            obtain ⟨rfl, rfl⟩ := Members.finish_map_eq_ok_iff.1 h
            exact .scopeFirst bindings source
        next => cases h
  next name code scope hkey =>
    cases Quoted.read_eq_ok_iff.1 hkey
    split at h
    next reader announced =>
      split at h
      next => cases h
      next typed read =>
        obtain ⟨rfl, rfl⟩ := Members.finish_map_eq_ok_iff.1 h
        exact .typed (code ·) (scope ·) announced read
    next plain =>
      split at h
      next => cases h
      next w read => exact .entry (code ·) (scope ·) plain read h

/-- Members of each of the forms are read. -/
theorem ReadsMember.readMembers_eq (h : ReadsMember room entries key value tail v) :
    readMembers room entries (.cons key value tail) = .ok v := by
  cases h with
  | code source => simp [readMembers, Quoted.read, source]
  | codeFirst source bindings =>
    simp [readMembers, Quoted.read, source, bindings, Members.finish, Except.map]
  | scopeFirst bindings source =>
    simp [readMembers, Quoted.read, source, bindings, Members.finish, Except.map]
  | @typed name value reader v code scope announced read =>
    rw [readMembers, Quoted.read]
    split
    case h_4 h =>
      cases h
      simp [announced, read, Members.finish, Except.map]
    all_goals simp_all
  | @entry name value tail v w code scope plain read rest =>
    rw [readMembers, Quoted.read]
    split
    case h_4 h =>
      cases h
      simp [plain, read, rest]
    all_goals simp_all

/-- Members are read exactly in one of the forms. -/
theorem readMembers_cons_eq_ok_iff :
    readMembers room entries (.cons key value tail) = .ok v ↔
      ReadsMember room entries key value tail v :=
  ⟨readsMember_of_readMembers, ReadsMember.readMembers_eq⟩

/-- A document is read from the members of an object. -/
theorem readScope_eq_ok_iff :
    readScope room node = .ok d ↔ ∃ inner members v, room = inner + 1 ∧ node = .object members ∧
      readMembers inner [] members = .ok v ∧ documentOf v = .ok d := by
  cases node with
  | object members =>
    cases room with
    | zero => simp [readScope, malformed]
    | succ inner =>
      rw [readScope]
      cases hv : readMembers inner [] members with
      | error => simp [hv]
      | ok v => simp [hv]
  | _ => cases room <;> simp [readScope, wrongKind_ne_ok]

end

end QueryPipeline
