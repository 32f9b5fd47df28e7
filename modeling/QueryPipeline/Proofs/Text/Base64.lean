import QueryPipeline.Text.Base64

/-!
# Bytes in base sixty-four read back

What is written for three bytes is read as those bytes, and so is each of the two padded groups that
may end a text, so every list of bytes reads back (`Base64.decode?_encode`).
-/

namespace QueryPipeline.Base64

/-- The character of a sextet stands for it, and it is no padding. -/
theorem sextet?_sextetChar {n : Nat} (h : n < 64) :
    sextet? (sextetChar n) = some n ∧ sextetChar n ≠ '=' := by
  have all : ∀ m < 64, sextet? (sextetChar m) = some m ∧ sextetChar m ≠ '=' := by decide
  exact all n h

/-- A written list of bytes reads back. -/
theorem decode?_encode (bytes : List UInt8) : decode? (encode bytes) = some bytes := by
  fun_induction encode bytes with
  | case1 => rfl
  | case2 a n =>
    have ha := a.toNat_lt
    obtain ⟨h₁, -⟩ := sextet?_sextetChar (n := n / 64) (by omega)
    obtain ⟨h₂, -⟩ := sextet?_sextetChar (n := n % 64) (by omega)
    have joined : n / 64 * 64 + n % 64 = n := by omega
    have spare : n % 16 = 0 := by omega
    have byte : n / 16 = a.toNat := by omega
    simp [decode?, h₁, h₂, joined, spare, byte]
  | case3 a b n =>
    have ha := a.toNat_lt
    have hb := b.toNat_lt
    obtain ⟨h₁, -⟩ := sextet?_sextetChar (n := n / 4096) (by omega)
    obtain ⟨h₂, -⟩ := sextet?_sextetChar (n := n / 64 % 64) (by omega)
    obtain ⟨h₃, filled⟩ := sextet?_sextetChar (n := n % 64) (by omega)
    have joined : (n / 4096 * 64 + n / 64 % 64) * 64 + n % 64 = n := by omega
    have spare : n % 4 = 0 := by omega
    have first : n / 1024 = a.toNat := by omega
    have second : n / 4 % 256 = b.toNat := by omega
    rw [decode?.eq_3 _ _ _ filled]
    simp [h₁, h₂, h₃, joined, spare, first, second]
  | case4 a b c rest n ih =>
    have ha := a.toNat_lt
    have hb := b.toNat_lt
    have hc := c.toNat_lt
    obtain ⟨h₁, -⟩ := sextet?_sextetChar (n := n / 262144) (by omega)
    obtain ⟨h₂, -⟩ := sextet?_sextetChar (n := n / 4096 % 64) (by omega)
    obtain ⟨h₃, -⟩ := sextet?_sextetChar (n := n / 64 % 64) (by omega)
    obtain ⟨h₄, filled⟩ := sextet?_sextetChar (n := n % 64) (by omega)
    have joined : ((n / 262144 * 64 + n / 4096 % 64) * 64 + n / 64 % 64) * 64 + n % 64 = n := by
      omega
    have first : n / 65536 = a.toNat := by omega
    have second : n / 256 % 256 = b.toNat := by omega
    have third : n % 256 = c.toNat := by omega
    simp [decode?, h₁, h₂, h₃, h₄, filled, joined, ih, first, second, third]

end QueryPipeline.Base64
