/-!
# Bytes in base sixteen

`Hex.encode` writes two lower-case digits a byte; `Hex.decode?` reads digits of either case.
-/

namespace QueryPipeline.Hex

/-- The value of a digit of base sixteen, of either case. -/
def digit? (c : Char) : Option Nat :=
  if '0' ≤ c ∧ c ≤ '9' then some (c.toNat - '0'.toNat)
  else if 'a' ≤ c ∧ c ≤ 'f' then some (c.toNat - 'a'.toNat + 10)
  else if 'A' ≤ c ∧ c ≤ 'F' then some (c.toNat - 'A'.toNat + 10)
  else none

/-- The two digits of a byte. -/
def encodeByte (b : UInt8) : List Char :=
  [Nat.digitChar (b.toNat / 16), Nat.digitChar (b.toNat % 16)]

/-- Two lower-case digits for each byte. -/
def encode (bytes : List UInt8) : List Char :=
  bytes.flatMap encodeByte

/-- Reads two digits for each byte. -/
def decode? : List Char → Option (List UInt8)
  | [] => some []
  | high :: low :: rest => do
    let h ← digit? high
    let l ← digit? low
    let bytes ← decode? rest
    return UInt8.ofNat (16 * h + l) :: bytes
  | [_] => none

/-! ## Reading what was written -/

theorem digit?_digitChar {n : Nat} (h : n < 16) : digit? (Nat.digitChar n) = some n := by
  have : ∀ m, m < 16 → digit? (Nat.digitChar m) = some m := by decide
  exact this n h

/-- The written form of bytes reads back. -/
theorem decode?_encode (bytes : List UInt8) : decode? (encode bytes) = some bytes := by
  induction bytes with
  | nil => rfl
  | cons b rest ih =>
    have hb := b.toNat_lt
    have hh : digit? (Nat.digitChar (b.toNat / 16)) = some (b.toNat / 16) :=
      digit?_digitChar (by omega)
    have hl : digit? (Nat.digitChar (b.toNat % 16)) = some (b.toNat % 16) :=
      digit?_digitChar (by omega)
    have hsum : UInt8.ofNat (16 * (b.toNat / 16) + b.toNat % 16) = b := by
      rw [Nat.div_add_mod, UInt8.ofNat_toNat]
    change decode? (Nat.digitChar (b.toNat / 16) :: Nat.digitChar (b.toNat % 16) :: encode rest) = _
    simp only [decode?, hh, hl, ih, Option.bind_eq_bind, Option.bind_some, Option.pure_def, hsum]

end QueryPipeline.Hex
