import Mathlib.Algebra.Order.Ring.Int
import QueryPipeline.Pagination
import QueryPipeline.Proofs.Text.Number

/-!
# The windows of pages

A page shows the records of a window: as many as the page holds, after those that are skipped. Each
number of a pagination is the one that its text denotes, or a default where the text denotes none
that counts (`Pagination.ofTexts_gives`), and the number of records to skip is exact as long as 64
bits hold it (`Pagination.toInt_skip`). So the windows of the pages of one size follow each other
without a gap: every position below the greatest multiple of the size is on exactly one page
(`Pagination.existsUnique_shows`). `Pagination.ofTexts_tiles` puts these together.
-/

namespace QueryPipeline

open Text

/-! ## The numbers of a pagination -/

/-- A text that is an optional sign and digits between blanks, with the number that it denotes. -/
inductive NumberText : Option String → Int → Prop
  | mk {text : String} {core : List Char} {n : Int} (htrim : Trimmed text.toList core)
      (h : SignedDigits core n) : NumberText (some text) n

/-- The number of a text if it denotes one that counts, and otherwise a default. -/
inductive Gives (counts : Int → Prop) (text : Option String) (default : Int64) : Int64 → Prop
  | number {k : Int64} (h : NumberText text k.toInt) (hcounts : counts k.toInt) :
      Gives counts text default k
  | default (h : ∀ n, NumberText text n → ¬ counts n) : Gives counts text default default

namespace Pagination

/-- A number of 64 bits is read from a text that denotes it. -/
theorem number?_eq_some_iff {text : Option String} {k : Int64} :
    number? text = some k ↔ NumberText text k.toInt := by
  simp only [number?, Option.bind_eq_some_iff, int64?_trimBlanks_eq_some_iff]
  constructor
  · rintro ⟨t, rfl, core, htrim, h⟩
    exact .mk htrim h
  · rintro @⟨t, core, _, htrim, h⟩
    exact ⟨t, rfl, core, htrim, h⟩

/-- A number that counts is kept, and a default stands in for any other. -/
theorem gives_getD {counts : Int → Prop} {p : Int64 → Bool} (hp : ∀ k, p k = true ↔ counts k.toInt)
    (range : ∀ n, counts n → -2 ^ 63 ≤ n ∧ n < 2 ^ 63) (text : Option String) (default : Int64) :
    Gives counts text default (((number? text).filter p).getD default) := by
  cases h : (number? text).filter p with
  | some k =>
    obtain ⟨hnumber, hk⟩ := Option.filter_eq_some_iff.1 h
    exact .number (number?_eq_some_iff.1 hnumber) ((hp k).1 hk)
  | none =>
    refine .default fun n hn hcounts => ?_
    obtain ⟨hlow, hhigh⟩ := range n hcounts
    -- A number that counts fits 64 bits, so the reader finds it.
    have htoInt : (Int64.ofInt n).toInt = n := Int64.toInt_ofInt_of_le hlow hhigh
    have hread : number? text = some (Int64.ofInt n) := by
      rw [number?_eq_some_iff, htoInt]
      exact hn
    have hk : p (Int64.ofInt n) = true := by
      rw [hp, htoInt]
      exact hcounts
    rw [hread, Option.filter_some, if_pos hk] at h
    cases h

/-- Both numbers of a pagination are given by their texts: the page if it is not negative, and its
size if it is positive. -/
theorem ofTexts_gives (page pageSize : Option String) (default : Int64) :
    Gives (fun n => 0 ≤ n ∧ n < 2 ^ 63) page 0 (ofTexts page pageSize default).page ∧
      Gives (fun n => 1 ≤ n ∧ n < 2 ^ 63) pageSize default
        (ofTexts page pageSize default).pageSize := by
  constructor
  · refine gives_getD (fun k => ?_) (fun n hn => by omega) page 0
    have := k.toInt_lt
    simp [Int64.le_iff_toInt_le]
    omega
  · refine gives_getD (fun k => ?_) (fun n hn => by omega) pageSize default
    have := k.toInt_lt
    simp [Int64.lt_iff_toInt_lt]
    omega

/-- No page that texts give is negative. -/
theorem page_ofTexts_nonneg (page pageSize : Option String) (default : Int64) :
    0 ≤ (ofTexts page pageSize default).page.toInt := by
  have gives := (ofTexts_gives page pageSize default).1
  generalize (ofTexts page pageSize default).page = k at gives ⊢
  cases gives with
  | number _ hcounts => exact hcounts.1
  | default => exact Int.le_refl 0

/-- A page has a positive size if it has one where no text gives it. -/
theorem pageSize_ofTexts_pos (page pageSize : Option String) {default : Int64}
    (h : 0 < default.toInt) : 0 < (ofTexts page pageSize default).pageSize.toInt := by
  have gives := (ofTexts_gives page pageSize default).2
  generalize (ofTexts page pageSize default).pageSize = k at gives ⊢
  cases gives with
  | number _ hcounts => exact Int.lt_of_lt_of_le Int.zero_lt_one hcounts.1
  | default => exact h

/-! ## The records before a page -/

/-- A number that is bounded by what 64 bits hold. -/
theorem toInt_saturate (n : Int) : (saturate n).toInt = max (-2 ^ 63) (min n (2 ^ 63 - 1)) :=
  Int64.toInt_ofInt_of_le (by omega) (by omega)

/-- Nothing is lost where one is taken from a page that is not negative. -/
theorem toInt_sub_one {page : Int64} (h : 0 ≤ page.toInt) :
    (page - 1).toInt = page.toInt - 1 := by
  have hlt := page.toInt_lt
  have hone : (1 : Int64).toInt = 1 := rfl
  rw [Int64.toInt_sub, hone]
  exact Int.bmod_eq_of_le (by omega) (by omega)

/-- The records of the pages before a page are skipped, as far as 64 bits can count them. -/
theorem toInt_skip {p : Pagination} (h : 0 ≤ p.page.toInt) :
    p.skip.toInt = if p.page = 0 then 0 else
      max (-2 ^ 63) (min ((p.page.toInt - 1) * p.pageSize.toInt) (2 ^ 63 - 1)) := by
  unfold skip
  split
  · rfl
  · rw [toInt_saturate, toInt_sub_one h]

/-- The records before a page of a positive size are counted from zero up. -/
theorem toInt_skip_of_pos {page size : Int64} (hpage : 0 ≤ page.toInt) (hsize : 0 < size.toInt) :
    (⟨page, size⟩ : Pagination).skip.toInt =
      min (max 0 (page.toInt - 1) * size.toInt) (2 ^ 63 - 1) := by
  rw [toInt_skip hpage]
  dsimp only
  split
  next h =>
    subst h
    have hfirst : max 0 ((0 : Int64).toInt - 1) = 0 := by decide
    rw [hfirst, Int.zero_mul]
    rfl
  next h =>
    have hpos : 1 ≤ page.toInt := by
      have hne : page.toInt ≠ 0 := fun hz => h (Int64.toInt_inj.1 hz)
      omega
    have hproduct : 0 ≤ (page.toInt - 1) * size.toInt :=
      Int.mul_nonneg (by omega) (by omega)
    rw [Int.max_eq_right (a := 0) (by omega)]
    omega

/-! ## Windows -/

/-- The positions of the records that a page shows. -/
def Shows (p : Pagination) (position : Int) : Prop :=
  p.skip.toInt ≤ position ∧ position < p.skip.toInt + p.pageSize.toInt

section
variable {size : Int64} (hsize : 0 < size.toInt)
include hsize

/-- No page skips a negative number of records, and later pages skip no fewer. -/
theorem skip_mono {page later : Int64} (hpage : 0 ≤ page.toInt) (h : page.toInt ≤ later.toInt) :
    0 ≤ (⟨page, size⟩ : Pagination).skip.toInt ∧
      (⟨page, size⟩ : Pagination).skip.toInt ≤ (⟨later, size⟩ : Pagination).skip.toInt := by
  have hmul : max 0 (page.toInt - 1) * size.toInt ≤ max 0 (later.toInt - 1) * size.toInt :=
    Int.mul_le_mul_of_nonneg_right (by omega) (by omega)
  have hnonneg : 0 ≤ max 0 (page.toInt - 1) * size.toInt :=
    Int.mul_nonneg (by omega) (by omega)
  rw [toInt_skip_of_pos hpage hsize, toInt_skip_of_pos (Int.le_trans hpage h) hsize]
  omega

/-- Below the greatest multiple of its size that 64 bits hold, a page shows the positions before
which there are as many whole pages as before itself. -/
theorem shows_iff {page : Int64} (hpage : 1 ≤ page.toInt) {position : Int}
    (h : position < (2 ^ 63 - 1) / size.toInt * size.toInt) :
    (⟨page, size⟩ : Pagination).Shows position ↔ position / size.toInt = page.toInt - 1 := by
  have hbound : (2 ^ 63 - 1) / size.toInt * size.toInt ≤ 2 ^ 63 - 1 :=
    Int.ediv_mul_le _ (by omega)
  have hskip : (⟨page, size⟩ : Pagination).skip.toInt = _ := toInt_skip_of_pos (by omega) hsize
  rw [Int.max_eq_right (by omega)] at hskip
  have hexact : position / size.toInt = page.toInt - 1 ↔
      (page.toInt - 1) * size.toInt ≤ position ∧
        position < (page.toInt - 1) * size.toInt + size.toInt := by
    have hnext : (page.toInt - 1) * size.toInt + size.toInt = page.toInt * size.toInt := by
      rw [Int.sub_mul, Int.one_mul, Int.sub_add_cancel]
    rw [hnext, ← Int.le_ediv_iff_mul_le hsize, ← Int.ediv_lt_iff_lt_mul hsize]
    omega
  rw [hexact, Shows, hskip]
  dsimp only
  -- A page whose records are too many to count is beyond the bound, as its window is.
  omega

/-- Every position below the greatest multiple of the size is on exactly one page. -/
theorem existsUnique_shows {position : Int} (hpos : 0 ≤ position)
    (h : position < (2 ^ 63 - 1) / size.toInt * size.toInt) :
    ∃! page : Int64, 1 ≤ page.toInt ∧ (⟨page, size⟩ : Pagination).Shows position := by
  have hnonneg : 0 ≤ position / size.toInt := Int.ediv_nonneg hpos (by omega)
  have hquotient : position / size.toInt < (2 ^ 63 - 1) / size.toInt :=
    (Int.ediv_lt_iff_lt_mul hsize).2 h
  have hle : (2 ^ 63 - 1) / size.toInt ≤ 2 ^ 63 - 1 := Int.ediv_le_self _ (by decide)
  have hpage : (Int64.ofInt (position / size.toInt + 1)).toInt = position / size.toInt + 1 :=
    Int64.toInt_ofInt_of_le (by omega) (by omega)
  refine ⟨Int64.ofInt (position / size.toInt + 1), ⟨by omega, ?_⟩, ?_⟩
  · rw [shows_iff hsize (by omega) h]
    omega
  · rintro page ⟨hone, hshows⟩
    rw [shows_iff hsize hone h] at hshows
    rw [← Int64.toInt_inj]
    omega

end

/-- The numbers of a pagination are those that its texts denote, and defaults where they denote none
that counts. What is skipped are the records of the pages before, as far as 64 bits count them, and
no step on the way there overflows. The pages of one size follow each other from the first record
on: page zero shows what page one shows, later pages skip no fewer records, and every position below
the greatest multiple of the size is on exactly one page. -/
theorem ofTexts_tiles (page pageSize : Option String) (default : Int64) :
    let p := ofTexts page pageSize default
    Gives (fun n => 0 ≤ n ∧ n < 2 ^ 63) page 0 p.page ∧
    Gives (fun n => 1 ≤ n ∧ n < 2 ^ 63) pageSize default p.pageSize ∧
    (p.page - 1).toInt = p.page.toInt - 1 ∧
    (p.skip.toInt = if p.page = 0 then 0 else
      max (-2 ^ 63) (min ((p.page.toInt - 1) * p.pageSize.toInt) (2 ^ 63 - 1))) ∧
    ∀ size : Int64, 0 < size.toInt →
      (∀ position, (⟨0, size⟩ : Pagination).Shows position ↔
        (⟨1, size⟩ : Pagination).Shows position) ∧
      (∀ page later : Int64, 0 ≤ page.toInt → page.toInt ≤ later.toInt →
        0 ≤ (⟨page, size⟩ : Pagination).skip.toInt ∧
          (⟨page, size⟩ : Pagination).skip.toInt ≤ (⟨later, size⟩ : Pagination).skip.toInt) ∧
      ∀ position, 0 ≤ position → position < (2 ^ 63 - 1) / size.toInt * size.toInt →
        ∃! page : Int64, 1 ≤ page.toInt ∧ (⟨page, size⟩ : Pagination).Shows position := by
  intro p
  obtain ⟨hpage, hsize⟩ := ofTexts_gives page pageSize default
  have hnonneg : 0 ≤ p.page.toInt := page_ofTexts_nonneg page pageSize default
  refine ⟨hpage, hsize, toInt_sub_one hnonneg, toInt_skip hnonneg,
    fun size hpos => ⟨fun position => ?_, fun page later => skip_mono hpos,
      fun position => existsUnique_shows hpos⟩⟩
  have hzero : (⟨0, size⟩ : Pagination).skip.toInt = 0 := rfl
  have hone : (⟨1, size⟩ : Pagination).skip.toInt = 0 := by
    have hfirst : max 0 ((1 : Int64).toInt - 1) = 0 := by decide
    rw [toInt_skip_of_pos (by decide) hpos, hfirst, Int.zero_mul]
    rfl
  rw [Shows, Shows, hzero, hone]

/-- A page with a sign and zeros in front between blanks of two kinds, of a size that does not
count. -/
theorem ofTexts_tiles_signed_page :
    let p := ofTexts (some " +012\xa0") (some "-5") 25
    p.page = 12 ∧ p.pageSize = 25 ∧ p.skip.toInt = 275 ∧ (p.page - 1).toInt = 11 ∧
      ∃! page : Int64, 1 ≤ page.toInt ∧ (⟨page, 25⟩ : Pagination).Shows 299 := by
  intro p
  have hpage : p.page = 12 := by decide
  have hsize : p.pageSize = 25 := by decide
  obtain ⟨-, -, hsub, hskip, htiles⟩ := ofTexts_tiles (some " +012\xa0") (some "-5") 25
  refine ⟨hpage, hsize, ?_, ?_, (htiles 25 (by decide)).2.2 299 (by decide) (by decide)⟩
  · rw [hskip, hpage, hsize]
    decide
  · rw [hsub, hpage]
    decide

end Pagination

end QueryPipeline
