import QueryPipeline.Proofs.Double.Reread
import QueryPipeline.Proofs.Projection.WireNames

/-!
# Flags read and written

A document of flags is read entry by entry: an entry is taken if its value is a flag and its name is
plain (`Projection.Accepted`), and the first one that is not settles the error
(`Projection.Refused`). Of the doubles both zeros exclude, and everything else includes, also what
is no number (`Double.beq_zero_iff`).

What is written of a projection is a document of flags again, and a projection of plain names is
read back from it (`Projection.ofFlags_toDocument`). `Projection.flags_read_and_written` puts this
together.
-/

namespace QueryPipeline

/-! ## Zeros -/

namespace Double

open Float.Model

/-- A zero of either sign, by its bits. -/
def IsZero (x : Float) : Prop :=
  x.toBits = 0 ∨ x.toBits = 0x8000000000000000

instance (x : Float) : Decidable (IsZero x) :=
  inferInstanceAs (Decidable (_ ∨ _))

/-- A zero is finite. -/
theorem IsZero.isFinite {x : Float} (h : IsZero x) : IsFinite x := by
  have bits : Float.ofBits x.toBits = x := Float.ofBits_toBits x
  rcases h with h | h
  · rw [← bits, h]
    rfl
  · rw [← bits, h]
    rfl

/-- A double has no significand exactly if it is a zero. -/
theorem significand_ofFloat_eq_zero_iff {x : Float} :
    (Binary.ofFloat x).significand = 0 ↔ IsZero x := by
  have bits := x.toBits.toNat_lt
  rw [IsZero, ← UInt64.toNat_inj, ← UInt64.toNat_inj]
  change _ ↔ x.toBits.toNat = 0 ∨ x.toBits.toNat = 0x8000000000000000
  unfold Binary.ofFloat
  dsimp only
  split
  · dsimp only
    omega
  · dsimp only
    omega

/-- A double that is infinite or undefined is not equal to zero. -/
theorem beq_zero_of_not_isFinite {x : Float} (h : ¬ IsFinite x) : (x == 0.0) = false := by
  have hzero : (0.0 : Float).toModel.unpack = .zero .positive := rfl
  have special : (x.toModel.unpack.isNaN || x.toModel.unpack.isInf) = true :=
    Bool.eq_true_of_not_eq_false h
  change UnpackedFloat.beq x.toModel.unpack (0.0 : Float).toModel.unpack = _
  rw [hzero]
  cases hunpack : x.toModel.unpack with
  | notANumber => rfl
  | infinity s => cases s <;> rfl
  | zero s | finite s m e pos =>
    rw [hunpack] at special
    cases special

/-- A double is equal to zero exactly if it is a zero. -/
theorem beq_zero_iff {x : Float} : (x == 0.0) = true ↔ IsZero x := by
  by_cases finite : IsFinite x
  · rw [finite.beq_zero, decide_eq_true_iff, significand_ofFloat_eq_zero_iff]
  · rw [beq_zero_of_not_isFinite finite]
    exact ⟨nofun, fun h => absurd h.isFinite finite⟩

end Double

namespace Projection

/-! ## Entries of a document of flags -/

/-- The values that are flags, and whether they include: a truth value says so itself, and a number
includes unless it is zero. -/
inductive IsFlag : Value → Bool → Prop
  | boolean (b : Bool) : IsFlag (.boolean b) b
  | int32 (n : Int32) : IsFlag (.int32 n) (decide (n.toInt ≠ 0))
  | int64 (n : Int64) : IsFlag (.int64 n) (decide (n.toInt ≠ 0))
  | double (x : Float) : IsFlag (.double x) (decide (¬ Double.IsZero x))

/-- An entry of a document of flags that a projection takes. -/
structure Accepted (entry : String × Value) : Prop where
  flag : ∃ included, IsFlag entry.2 included
  name : entry.1 ≠ "" ∧ entry.1.toList.head? ≠ some '$'

/-- The error that an entry is refused with. The value is looked at before the name. -/
inductive Refused (entry : String × Value) : CompileError → Prop
  | value (other : ∀ included, ¬ IsFlag entry.2 included) :
      Refused entry (.invalidField .projection entry.1 (.notFlag entry.2))
  | name (flag : ∃ included, IsFlag entry.2 included)
      (h : entry.1 = "" ∨ entry.1.toList.head? = some '$') :
      Refused entry (.invalidField .projection entry.1 .notPlain)

/-- A number includes unless it is zero. -/
theorem flag?_number :
    (∀ n : Int32, flag? (.int32 n) = some (decide (n.toInt ≠ 0))) ∧
    (∀ n : Int64, flag? (.int64 n) = some (decide (n.toInt ≠ 0))) ∧
    ∀ x : Float, flag? (.double x) = some (decide (¬ Double.IsZero x)) := by
  refine ⟨fun n => ?_, fun n => ?_, fun x => ?_⟩
  · have same : n.toInt = 0 ↔ n = 0 := Int32.toInt_inj (y := 0)
    rw [flag?, Option.some.injEq, Bool.eq_iff_iff, bne_iff_ne, decide_eq_true_iff, ne_eq, ne_eq,
      same]
  · have same : n.toInt = 0 ↔ n = 0 := Int64.toInt_inj (y := 0)
    rw [flag?, Option.some.injEq, Bool.eq_iff_iff, bne_iff_ne, decide_eq_true_iff, ne_eq, ne_eq,
      same]
  · simp [flag?, ← Double.beq_zero_iff, bne]

/-- A value is read as the flag that it is. -/
theorem flag?_eq_some_iff {value : Value} {included : Bool} :
    flag? value = some included ↔ IsFlag value included := by
  obtain ⟨ofInt32, ofInt64, ofDouble⟩ := flag?_number
  constructor
  · intro h
    cases value with
    | boolean b =>
      cases h
      exact .boolean included
    | int32 n =>
      cases (ofInt32 n).symm.trans h
      exact .int32 n
    | int64 n =>
      cases (ofInt64 n).symm.trans h
      exact .int64 n
    | double x =>
      cases (ofDouble x).symm.trans h
      exact .double x
    | _ => cases h
  · intro h
    cases h with
    | boolean => rfl
    | int32 n => exact ofInt32 n
    | int64 n => exact ofInt64 n
    | double x => exact ofDouble x

/-- A plain name is neither empty nor begins with a dollar sign; another name does one of these. -/
theorem not_isPlainName_iff {name : String} :
    ¬ IsPlainName name ↔ name = "" ∨ name.toList.head? = some '$' := by
  rw [isPlainName_iff, not_and_or, not_not, not_not]

/-- An entry is added exactly if it is accepted. -/
theorem exists_addFlag_eq_ok_iff {projection : Projection} {entry : String × Value} :
    (∃ added, projection.addFlag entry = .ok added) ↔ Accepted entry := by
  simp only [addFlag_eq_ok_iff, flag?_eq_some_iff, isPlainName_iff]
  constructor
  · rintro ⟨_, included, flag, name, -⟩
    exact ⟨⟨included, flag⟩, name⟩
  · rintro ⟨⟨included, flag⟩, name⟩
    exact ⟨_, included, flag, name, rfl⟩

/-- An entry that is not added is refused, whatever was added before. -/
theorem addFlag_eq_error_iff {projection : Projection} {entry : String × Value} {e : CompileError} :
    projection.addFlag entry = .error e ↔ Refused entry e := by
  unfold addFlag
  cases hflag : flag? entry.2 with
  | none =>
    have other (included : Bool) : ¬ IsFlag entry.2 included := by
      rw [← flag?_eq_some_iff, hflag]
      nofun
    constructor
    · intro h
      cases h
      exact .value other
    · intro h
      cases h with
      | value => rfl
      | name flag => exact absurd flag.choose_spec (other _)
  | some included =>
    have flag : IsFlag entry.2 included := flag?_eq_some_iff.1 hflag
    dsimp only
    constructor
    · intro h
      split at h
      · cases h
      · next name =>
        cases h
        exact .name ⟨included, flag⟩ (not_isPlainName_iff.1 name)
    · intro h
      cases h with
      | value other => exact absurd flag (other included)
      | name _ h =>
        rw [if_neg (not_isPlainName_iff.2 h)]
        rfl

/-! ## Documents of flags -/

variable {flags : Document} {projection : Projection}

/-- A document of flags is taken exactly if each of its entries is. -/
theorem exists_ofFlags_eq_ok_iff :
    (∃ projection, ofFlags flags = .ok projection) ↔ ∀ entry ∈ flags, Accepted entry :=
  exists_foldlM_eq_ok_iff (f := addFlag) (P := fun _ => True) (Q := Accepted)
    (fun _ _ _ _ _ => trivial) (fun _ _ _ => exists_addFlag_eq_ok_iff) trivial

/-- The first entry that is not taken settles the error. -/
theorem ofFlags_eq_error_iff {e : CompileError} :
    ofFlags flags = .error e ↔ ∃ before entry after, flags = before ++ entry :: after ∧
      (∀ earlier ∈ before, Accepted earlier) ∧ Refused entry e := by
  rw [ofFlags, foldlM_eq_error_iff]
  simp only [addFlag_eq_error_iff]
  constructor
  · rintro ⟨before, entry, after, made, split, hmade, refused⟩
    exact ⟨before, entry, after, split, exists_ofFlags_eq_ok_iff.1 ⟨made, hmade⟩, refused⟩
  · rintro ⟨before, entry, after, split, accepted, refused⟩
    obtain ⟨made, hmade⟩ := exists_ofFlags_eq_ok_iff.2 accepted
    exact ⟨before, entry, after, made, split, hmade, refused⟩

/-- The updates of a document of flags that is taken. -/
theorem exists_updates_of_ofFlags (h : ofFlags flags = .ok projection) :
    ∃ updates, List.Forall₂ Flags flags updates ∧ Built updates projection := by
  refine ⟨flags.map fun entry => (entry.1, (flag? entry.2).getD false), ?_⟩
  have marked : List.Forall₂ Flags flags
      (flags.map fun entry => (entry.1, (flag? entry.2).getD false)) := by
    rw [List.forall₂_map_right_iff, List.forall₂_same]
    intro entry hentry
    obtain ⟨included, flag⟩ := (exists_ofFlags_eq_ok_iff.1 ⟨projection, h⟩ entry hentry).flag
    rw [← flag?_eq_some_iff] at flag
    exact ⟨rfl, by rw [flag, Option.getD_some]⟩
  exact ⟨marked, .flagged marked h⟩

/-- A projection of flags with distinct names has these names in order, each with its flag. -/
theorem fields_of_ofFlags {updates : List (String × Bool)} (distinct : flags.Distinct)
    (marked : List.Forall₂ Flags flags updates) (h : ofFlags flags = .ok projection) :
    projection.fields = updates := by
  have names : Keyed.keys flags = Keyed.keys updates := by
    unfold Keyed.keys
    rw [← List.forall₂_eq_eq_eq, List.forall₂_map_left_iff, List.forall₂_map_right_iff]
    exact marked.imp fun _ _ flag => flag.1
  have once : (Keyed.keys updates).Nodup := names ▸ distinct
  rw [(Built.flagged marked h).fields_eq, Keyed.ofUpdates_of_nodup once]

/-! ## Projections written as flags -/

/-- The number of a flag is read as the flag. -/
theorem flag?_flagNumber (included : Bool) :
    flag? (.int32 (if included then 1 else 0)) = some included := by
  cases included <;> rfl

/-- A projection whose fields are distinct is written field by field. -/
theorem toDocument_of_nodup (distinct : projection.fields.keys.Nodup) :
    projection.toDocument =
      projection.fields.map fun field => (field.1, .int32 (if field.2 then 1 else 0)) := by
  refine Keyed.ofUpdates_of_nodup ?_
  rw [Keyed.keys, List.map_map]
  exact distinct

/-- The fields of a projection are distinct, however it was built. -/
theorem Built.nodup_keys {updates : List (String × Bool)} (h : Built updates projection) :
    projection.fields.keys.Nodup := by
  rw [h.fields_eq]
  exact Keyed.nodup_keys_ofUpdates updates

/-- A projection of plain names is read back from its document, and no other is. -/
theorem ofFlags_toDocument (distinct : projection.fields.keys.Nodup) :
    ofFlags projection.toDocument = .ok projection ↔
      ∀ name ∈ projection.fields.keys, IsPlainName name := by
  refine ⟨plain_of_ofFlags, fun plain => ?_⟩
  have written := toDocument_of_nodup distinct
  have marked : List.Forall₂ Flags projection.toDocument projection.fields := by
    rw [written, List.forall₂_map_left_iff, List.forall₂_same]
    exact fun field _ => ⟨rfl, flag?_flagNumber field.2⟩
  have names : Keyed.keys projection.toDocument = projection.fields.keys := by
    rw [written, Keyed.keys, List.map_map]
    rfl
  have taken : ∀ entry ∈ projection.toDocument, Accepted entry := by
    intro entry hentry
    rw [written] at hentry
    obtain ⟨field, hfield, rfl⟩ := List.mem_map.1 hentry
    exact ⟨⟨field.2, flag?_eq_some_iff.1 (flag?_flagNumber field.2)⟩,
      (isPlainName_iff field.1).1 (plain field.1 (List.mem_map_of_mem hfield))⟩
  obtain ⟨again, h⟩ := exists_ofFlags_eq_ok_iff.2 taken
  have fields : again.fields = projection.fields := by
    refine fields_of_ofFlags ?_ marked h
    rw [Document.Distinct, names]
    exact distinct
  rw [h, Except.ok.injEq, Projection.mk.injEq, fields]

/-- A document of flags is read exactly if each of its entries has a flag and a plain name, and
otherwise the first entry that has not settles the error. The projection that is read has the names
of the document in its order, each included as its flag says, and is written with the same names in
the same order; what is written is read as the same projection. So is what is written of any
projection of plain names, however it was built. Both zeros exclude, and what is no number
includes. -/
theorem flags_read_and_written :
    (∀ flags : Document,
      ((∃ projection, ofFlags flags = .ok projection) ↔ ∀ entry ∈ flags, Accepted entry) ∧
      (∀ e, ofFlags flags = .error e ↔ ∃ before entry after, flags = before ++ entry :: after ∧
        (∀ earlier ∈ before, Accepted earlier) ∧ Refused entry e) ∧
      ∀ projection, ofFlags flags = .ok projection →
        (flags.Distinct →
          List.Forall₂ (fun entry field => field.1 = entry.1 ∧ IsFlag entry.2 field.2)
            flags projection.fields ∧
          projection.toDocument =
            projection.fields.map fun field => (field.1, .int32 (if field.2 then 1 else 0))) ∧
        ofFlags projection.toDocument = .ok projection) ∧
    (∀ updates projection, Built updates projection →
      (∀ name ∈ projection.fields.keys, name ≠ "" ∧ name.toList.head? ≠ some '$') →
      ofFlags projection.toDocument = .ok projection) ∧
    IsFlag (.double 0.0) false ∧ IsFlag (.double (-0.0)) false ∧
    ∀ x : Float, x.isNaN = true → IsFlag (.double x) true := by
  refine ⟨fun flags => ⟨exists_ofFlags_eq_ok_iff, fun e => ofFlags_eq_error_iff,
    fun projection h => ?_⟩, fun updates projection built plain => ?_, ?_, ?_,
    fun x undefined => ?_⟩
  · obtain ⟨updates, marked, built⟩ := exists_updates_of_ofFlags h
    refine ⟨fun distinct => ⟨?_, toDocument_of_nodup built.nodup_keys⟩,
      (ofFlags_toDocument built.nodup_keys).2 (plain_of_ofFlags h)⟩
    rw [fields_of_ofFlags distinct marked h]
    exact marked.imp fun _ _ flag => ⟨flag.1.symm, flag?_eq_some_iff.1 flag.2⟩
  · exact (ofFlags_toDocument built.nodup_keys).2 fun name hname =>
      (isPlainName_iff name).2 (plain name hname)
  · exact .double 0.0
  · exact .double (-0.0)
  · have other : ¬ Double.IsZero x := fun zero => by
      have finite : (x.isNaN || x.isInf) = false := zero.isFinite
      rw [undefined] at finite
      cases finite
    exact decide_eq_true other ▸ .double x

/-- A minus zero excludes and a negative number includes. Of a value that is no flag under a name
that is not plain the value is reported, and a second fault after it is not. -/
theorem flags_read_and_written_mixed :
    let flags : Document := [("a", .double (-0.0)), ("b", .int64 (-3)), ("c", .boolean false)]
    let projection : Projection := ⟨[("a", false), ("b", true), ("c", false)]⟩
    let refused : Document := [("x", .int32 1), ("$y", .string "s"), ("", .int32 0)]
    let built : Projection := ((ofNames ["a", "b"]).excluding "a").including "c"
    (ofFlags flags = .ok projection ∧
      projection.toDocument = [("a", .int32 0), ("b", .int32 1), ("c", .int32 0)] ∧
      ofFlags projection.toDocument = .ok projection) ∧
    ofFlags refused = .error (.invalidField .projection "$y" (.notFlag (.string "s"))) ∧
    ofFlags built.toDocument = .ok built := by
  intro flags projection refused built
  obtain ⟨reads, writes, -⟩ := flags_read_and_written
  have read : ofFlags flags = .ok projection := rfl
  have distinct : flags.Distinct := by decide
  obtain ⟨-, -, taken⟩ := reads flags
  obtain ⟨-, failing, -⟩ := reads refused
  have way : Built _ built := .included (.excluded (.collected ["a", "b"]) "a") "c"
  refine ⟨⟨read, ((taken projection read).1 distinct).2, (taken projection read).2⟩, ?_,
    writes _ built way (by decide)⟩
  have accepted : ∀ earlier ∈ [(("x", .int32 1) : String × Value)], Accepted earlier :=
    List.forall_mem_singleton.2 ⟨⟨_, .int32 1⟩, by decide⟩
  exact (failing _).2 ⟨_, ("$y", .string "s"), _, rfl, accepted, .value fun _ => nofun⟩

end Projection

end QueryPipeline
