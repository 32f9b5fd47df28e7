/-!
# Plain field names

A name that a client chooses becomes a key of a query, where a leading dollar sign would make it an
operator. A name is plain if it is neither empty nor begins with a dollar sign.
-/

namespace QueryPipeline

/-- What keeps a name from being plain. -/
inductive NameFault where
  | empty
  | dollar
deriving DecidableEq, Repr

/-- The fault of a name that is not plain. -/
def nameFault? (name : String) : Option NameFault :=
  match name.toList with
  | [] => some .empty
  | '$' :: _ => some .dollar
  | _ => none

/-- A name that is neither empty nor begins with a dollar sign. -/
def IsPlainName (name : String) : Prop :=
  nameFault? name = none

instance (name : String) : Decidable (IsPlainName name) :=
  inferInstanceAs (Decidable (_ = _))

/-- A reference to a field in a query. -/
def fieldReference (name : String) : String :=
  "$" ++ name

/-- A name has a fault exactly if it is empty or begins with a dollar sign. -/
theorem nameFault?_eq_some_iff {name : String} {fault : NameFault} :
    nameFault? name = some fault ↔
      (name = "" ∧ fault = .empty) ∨ (name.toList.head? = some '$' ∧ fault = .dollar) := by
  have hnil : name = "" ↔ name.toList = [] := by simp
  rw [nameFault?, hnil]
  cases name.toList with
  | nil => simp [eq_comm]
  | cons c rest =>
    by_cases hc : c = '$'
    · subst hc; simp [eq_comm]
    · simp [hc]

/-- A name is plain exactly if its first character exists and is no dollar sign. -/
theorem isPlainName_iff (name : String) :
    IsPlainName name ↔ name ≠ "" ∧ name.toList.head? ≠ some '$' := by
  rw [IsPlainName, Option.eq_none_iff_forall_ne_some]
  constructor
  · intro h
    exact ⟨fun e => h .empty (nameFault?_eq_some_iff.2 (.inl ⟨e, rfl⟩)),
      fun e => h .dollar (nameFault?_eq_some_iff.2 (.inr ⟨e, rfl⟩))⟩
  · rintro ⟨given, no_dollar⟩ fault h
    rcases nameFault?_eq_some_iff.1 h with ⟨e, -⟩ | ⟨e, -⟩
    · exact given e
    · exact no_dollar e

end QueryPipeline
