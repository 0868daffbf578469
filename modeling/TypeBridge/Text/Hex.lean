import TypeBridge.Text.Basic

/-!
Hexadecimal numbers of a fixed width, in lower case. Main statement: reading a written number gives
it back, as far as it fits the width.
-/

namespace TypeBridge.Text

/-- The lower-case hexadecimal digit of a number below sixteen. -/
def hexDigit (n : Nat) : Char :=
  if n < 10 then Char.ofNat (0x30 + n) else Char.ofNat (0x57 + n)

/-- The value of a hexadecimal digit of either case. -/
def hexValue? (c : Char) : Option Nat :=
  if '0' ≤ c ∧ c ≤ '9' then some (c.toNat - 0x30)
  else if 'a' ≤ c ∧ c ≤ 'f' then some (c.toNat - 0x57)
  else if 'A' ≤ c ∧ c ≤ 'F' then some (c.toNat - 0x37)
  else none

/-- The last `width` hexadecimal digits of a number. -/
def hex : Nat → Nat → Text
  | 0, _ => []
  | width + 1, n => hex width (n / 16) ++ [hexDigit (n % 16)]

/-- The number that a list of hexadecimal digits writes. -/
def ofHex? (s : Text) : Option Nat :=
  s.foldl (fun n? c => n?.bind fun n => (hexValue? c).map fun d => 16 * n + d) (some 0)

theorem hexValue?_hexDigit : ∀ n < 16, hexValue? (hexDigit n) = some n := by decide

@[simp] theorem length_hex : ∀ (width n : Nat), (hex width n).length = width
  | 0, _ => rfl
  | width + 1, n => by simp [hex, length_hex width]

theorem ofHex?_hex : ∀ (width n : Nat), ofHex? (hex width n) = some (n % Nat.pow 16 width)
  | 0, n => by simp [hex, ofHex?, Nat.mod_one]
  | width + 1, n => by
    have ih := ofHex?_hex width (n / 16)
    simp only [ofHex?] at ih ⊢
    rw [hex, List.foldl_append, ih]
    simp only [List.foldl_cons, List.foldl_nil, Option.bind_some, Option.map_some,
      hexValue?_hexDigit _ (Nat.mod_lt n (by decide)), Option.some.injEq]
    rw [show Nat.pow 16 (width + 1) = 16 * Nat.pow 16 width from Nat.pow_succ', Nat.mod_mul]
    omega

theorem mem_hex : ∀ {width n : Nat} {c : Char}, c ∈ hex width n → ∃ d < 16, c = hexDigit d
  | 0, _, _, h => by simp [hex] at h
  | width + 1, n, c, h => by
    rcases List.mem_append.1 h with h | h
    · exact mem_hex h
    · exact ⟨n % 16, Nat.mod_lt n (by decide), by simpa using h⟩

end TypeBridge.Text
