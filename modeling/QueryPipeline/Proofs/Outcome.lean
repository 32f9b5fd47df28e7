import Mathlib.Data.List.Forall2

/-!
# Steps that may fail

Readers and compilers chain steps of which each may fail. A chain that succeeds is one whose steps
succeed (`bind_eq_ok_iff`), a list is compiled as a whole exactly if each of its elements is
(`mapM_eq_ok_iff`), and what one step of a fold preserves a fold that succeeds preserves
(`foldlM_preserves`). A chain that fails does so with the error of the first step that fails, and of
a list it is the first element that fails (`mapM_eq_error_iff`, `foldlM_eq_error_iff`). A step that
only checks is a value with an optional fault (`unlessFault`), and a fold of such steps has the
first fault of its list (`foldlM_eq_unlessFault`).
-/

namespace QueryPipeline

variable {ε α β : Type}

/-- A chain of two steps succeeds exactly if both steps do. -/
theorem bind_eq_ok_iff {x : Except ε α} {f : α → Except ε β} {b : β} :
    x >>= f = .ok b ↔ ∃ a, x = .ok a ∧ f a = .ok b := by
  cases x <;> simp [bind, Except.bind]

/-- A result that is changed comes from a step that succeeds. -/
theorem map_eq_ok_iff {x : Except ε α} {f : α → β} {b : β} :
    x.map f = .ok b ↔ ∃ a, x = .ok a ∧ f a = b := by
  cases x <;> simp [Except.map]

/-- A result that is handed on as it is. -/
theorem pure_eq_ok_iff {a b : α} : (pure a : Except ε α) = .ok b ↔ a = b := by
  simp [pure, Except.pure]

/-- A list is mapped as a whole exactly if each element is, one result for each. -/
theorem mapM_eq_ok_iff {f : α → Except ε β} {xs : List α} {ys : List β} :
    xs.mapM f = .ok ys ↔ List.Forall₂ (fun x y => f x = .ok y) xs ys := by
  induction xs generalizing ys with
  | nil => rw [List.mapM_nil, pure_eq_ok_iff, List.forall₂_nil_left_iff, eq_comm]
  | cons x xs ih =>
    simp only [List.mapM_cons, bind_eq_ok_iff, pure_eq_ok_iff, ih, List.forall₂_cons_left_iff]
    constructor
    · rintro ⟨y, hy, rest, hrest, rfl⟩
      exact ⟨y, rest, hy, hrest, rfl⟩
    · rintro ⟨y, rest, hy, hrest, rfl⟩
      exact ⟨y, hy, rest, hrest, rfl⟩

/-- A list is mapped as a whole exactly if no element of it fails. -/
theorem exists_mapM_eq_ok_iff {f : α → Except ε β} {xs : List α} :
    (∃ ys, xs.mapM f = .ok ys) ↔ ∀ x ∈ xs, ∃ y, f x = .ok y := by
  simp only [mapM_eq_ok_iff]
  induction xs with
  | nil => simp
  | cons x xs ih =>
    rw [List.forall_mem_cons, ← ih]
    simp only [List.forall₂_cons_left_iff]
    constructor
    · rintro ⟨_, y, ys, hy, hys, -⟩
      exact ⟨⟨y, hy⟩, ys, hys⟩
    · rintro ⟨⟨y, hy⟩, ys, hys⟩
      exact ⟨_, y, ys, hy, hys, rfl⟩

/-- Two functions that agree on the elements of a list map it alike. -/
theorem mapM_congr {f g : α → Except ε β} {xs : List α} (agree : ∀ x ∈ xs, f x = g x) :
    xs.mapM f = xs.mapM g := by
  induction xs with
  | nil => rfl
  | cons x xs ih =>
    obtain ⟨head, tail⟩ := List.forall_mem_cons.1 agree
    rw [List.mapM_cons, List.mapM_cons, head, ih tail]

/-- Each element on the right of a pointwise relation is related to one on the left. -/
theorem exists_mem_left_of_forall₂ {R : α → β → Prop} {xs : List α} {ys : List β}
    (h : List.Forall₂ R xs ys) {y : β} (hy : y ∈ ys) : ∃ x ∈ xs, R x y := by
  induction h with
  | nil => cases hy
  | cons hab _ ih =>
    cases hy with
    | head => exact ⟨_, .head _, hab⟩
    | tail _ hy =>
      obtain ⟨x, hx, hxy⟩ := ih hy
      exact ⟨x, .tail _ hx, hxy⟩

/-- What each step of a fold preserves holds after every fold that succeeds. -/
theorem foldlM_preserves {f : β → α → Except ε β} {P : β → Prop}
    (step : ∀ b a b', P b → f b a = .ok b' → P b') {xs : List α} {b b' : β} (hb : P b)
    (h : xs.foldlM f b = .ok b') : P b' := by
  induction xs generalizing b with
  | nil => exact pure_eq_ok_iff.1 h ▸ hb
  | cons x xs ih =>
    rw [List.foldlM_cons, bind_eq_ok_iff] at h
    obtain ⟨c, hc, h⟩ := h
    exact ih (step b x c hb hc) h

/-- A fold goes through exactly if each element is one that the steps take, where the steps keep an
invariant under which they take the same elements. -/
theorem exists_foldlM_eq_ok_iff {f : β → α → Except ε β} {P : β → Prop} {Q : α → Prop}
    (keeps : ∀ b a b', P b → f b a = .ok b' → P b')
    (takes : ∀ b a, P b → ((∃ b', f b a = .ok b') ↔ Q a)) {xs : List α} {b : β} (hb : P b) :
    (∃ b', xs.foldlM f b = .ok b') ↔ ∀ a ∈ xs, Q a := by
  induction xs generalizing b with
  | nil => simp [pure, Except.pure]
  | cons a xs ih =>
    simp only [List.foldlM_cons, bind_eq_ok_iff, List.forall_mem_cons, ← takes b a hb]
    constructor
    · rintro ⟨b', c, hc, hb'⟩
      exact ⟨⟨c, hc⟩, (ih (keeps b a c hb hc)).1 ⟨b', hb'⟩⟩
    · rintro ⟨⟨c, hc⟩, rest⟩
      obtain ⟨b', hb'⟩ := (ih (keeps b a c hb hc)).2 rest
      exact ⟨b', c, hc, hb'⟩

/-! ## The first failure -/

/-- A step is either done or has failed. -/
theorem forall_ne_error_iff {x : Except ε α} : (∀ e, x ≠ .error e) ↔ ∃ a, x = .ok a := by
  cases x <;> simp

/-- A chain of two steps fails with the first step, or with the second where the first is done. -/
theorem bind_eq_error_iff {x : Except ε α} {f : α → Except ε β} {e : ε} :
    x >>= f = .error e ↔ x = .error e ∨ ∃ a, x = .ok a ∧ f a = .error e := by
  cases x <;> simp [bind, Except.bind]

/-- A result that is changed fails exactly if the step does. -/
theorem map_eq_error_iff {x : Except ε α} {f : α → β} {e : ε} :
    x.map f = .error e ↔ x = .error e := by
  cases x <;> simp [Except.map]

/-- A list that is mapped fails with its first element that fails. -/
theorem mapM_eq_error_iff {f : α → Except ε β} {xs : List α} {e : ε} :
    xs.mapM f = .error e ↔ ∃ before x after, xs = before ++ x :: after ∧
      (∀ y ∈ before, ∃ b, f y = .ok b) ∧ f x = .error e := by
  induction xs with
  | nil => simp [pure, Except.pure]
  | cons x xs ih =>
    rw [List.mapM_cons, bind_eq_error_iff]
    constructor
    · rintro (hx | ⟨b, hb, h⟩)
      · exact ⟨[], x, xs, rfl, by simp, hx⟩
      · simp only [bind_eq_error_iff, pure, Except.pure, reduceCtorEq, and_false, exists_false,
          or_false] at h
        obtain ⟨before, y, after, rfl, hbefore, hy⟩ := ih.1 h
        exact ⟨x :: before, y, after, rfl, by simpa using ⟨⟨b, hb⟩, hbefore⟩, hy⟩
    · rintro ⟨before, y, after, hsplit, hbefore, hy⟩
      cases before with
      | nil =>
        cases hsplit
        exact .inl hy
      | cons z before =>
        cases hsplit
        obtain ⟨⟨b, hb⟩, hbefore⟩ := List.forall_mem_cons.1 hbefore
        exact .inr ⟨b, hb, bind_eq_error_iff.2 (.inl (ih.2 ⟨before, y, after, rfl, hbefore, hy⟩))⟩

/-- A fold fails with its first step that fails. -/
theorem foldlM_eq_error_iff {f : β → α → Except ε β} {xs : List α} {b : β} {e : ε} :
    xs.foldlM f b = .error e ↔ ∃ before x after c, xs = before ++ x :: after ∧
      before.foldlM f b = .ok c ∧ f c x = .error e := by
  induction xs generalizing b with
  | nil => simp [pure, Except.pure]
  | cons x xs ih =>
    rw [List.foldlM_cons, bind_eq_error_iff]
    constructor
    · rintro (hx | ⟨c, hc, h⟩)
      · exact ⟨[], x, xs, b, rfl, rfl, hx⟩
      · obtain ⟨before, y, after, d, rfl, hd, hy⟩ := ih.1 h
        refine ⟨x :: before, y, after, d, rfl, ?_, hy⟩
        rw [List.foldlM_cons]
        exact bind_eq_ok_iff.2 ⟨c, hc, hd⟩
    · rintro ⟨before, y, after, d, hsplit, hd, hy⟩
      cases before with
      | nil =>
        cases hsplit
        cases hd
        exact .inl hy
      | cons z before =>
        cases hsplit
        rw [List.foldlM_cons] at hd
        obtain ⟨c, hc, hd⟩ := bind_eq_ok_iff.1 hd
        exact .inr ⟨c, hc, ih.2 ⟨before, y, after, d, rfl, hd, hy⟩⟩

/-! ## Checks before a result -/

/-- A value that is handed on unless there is a fault. -/
def unlessFault (fault : Option ε) (value : α) : Except ε α :=
  match fault with
  | some e => .error e
  | none => .ok value

@[simp] theorem unlessFault_none (value : α) :
    unlessFault (none : Option ε) value = .ok value :=
  rfl

/-- A checked value fails with the fault. -/
theorem unlessFault_eq_error_iff {fault : Option ε} {value : α} {e : ε} :
    unlessFault fault value = .error e ↔ fault = some e := by
  cases fault <;> simp [unlessFault]

/-- A checked value is there exactly if there is no fault. -/
theorem unlessFault_eq_ok_iff {fault : Option ε} {value a : α} :
    unlessFault fault value = .ok a ↔ fault = none ∧ value = a := by
  cases fault <;> simp [unlessFault]

/-- Of two checks in a row the first fault counts. -/
theorem unlessFault_bind {first second : Option ε} {value : α} {f : α → Except ε β} {result : β}
    (h : f value = unlessFault second result) :
    unlessFault first value >>= f = unlessFault (first.or second) result := by
  cases first with
  | none => exact h
  | some e => rfl

/-- A fold whose steps check their elements, and keep an invariant under which they do, has the
first fault of its list. -/
theorem foldlM_eq_unlessFault {f : β → α → Except ε β} {fault? : α → Option ε} {next : β → α → β}
    {P : β → Prop} (keeps : ∀ b a, P b → P (next b a))
    (step : ∀ b a, P b → f b a = unlessFault (fault? a) (next b a)) {b : β} (hb : P b)
    (xs : List α) :
    xs.foldlM f b = unlessFault (xs.filterMap fault?).head? (xs.foldl next b) := by
  induction xs generalizing b with
  | nil => rfl
  | cons x xs ih =>
    have rest := ih (keeps b x hb)
    rw [List.foldlM_cons, step b x hb, List.foldl_cons]
    cases h : fault? x with
    | none =>
      rw [List.filterMap_cons_none h]
      exact rest
    | some e =>
      rw [List.filterMap_cons_some h]
      rfl

end QueryPipeline
