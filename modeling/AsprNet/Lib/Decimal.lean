import AsprNet.Lib.Bytes

/-! # Decimal numbers

`text (toString z)` is an integer in decimal. `readDecimal` reads it back, and accepts nothing else
(`readDecimal_eq_some_iff`).
-/

namespace AsprNet

/-- The value of decimal digits, most significant first. -/
def digitsValue (bs : Bytes) : ℕ := bs.foldl (fun n b => 10 * n + (b.toNat - 48)) 0

/-- The value of digits behind a `-`, if there is one. -/
def signedValue : Bytes → ℤ
  | 45 :: bs => -digitsValue bs
  | bs => digitsValue bs

/-- The integer that is written `bs`, if there is one. -/
def readDecimal (bs : Bytes) : Option ℤ :=
  if text (toString (signedValue bs)) = bs then some (signedValue bs) else none

/-- The bytes of two texts in turn. -/
theorem text_append (s t : String) : text (s ++ t) = text s ++ text t := by
  rw [text, String.toList_append, List.map_append]
  rfl

/-- The digits of a number, as bytes. -/
theorem text_repr (n : ℕ) :
    text n.repr = (Nat.toDigits 10 n).map fun c => UInt8.ofNat c.toNat := by
  rw [text, Nat.toList_repr]

/-- A digit is a byte. -/
theorem toNat_digit {c : Char} (hc : c.isDigit = true) :
    48 ≤ c.toNat ∧ c.toNat ≤ 57 ∧ (UInt8.ofNat c.toNat).toNat = c.toNat := by
  rw [Char.isDigit, Bool.and_eq_true, decide_eq_true_eq, decide_eq_true_eq] at hc
  have hlow : 48 ≤ c.toNat := hc.1
  have hhigh : c.toNat ≤ 57 := hc.2
  refine ⟨hlow, hhigh, ?_⟩
  rw [UInt8.toNat_ofNat']
  exact Nat.mod_eq_of_lt (by omega)

/-- What is printed of a number are digits. -/
theorem isDigit_toDigits {n : ℕ} {c : Char} (hc : c ∈ Nat.toDigits 10 n) : c.isDigit = true :=
  Nat.isDigit_of_mem_toDigits (by decide) le_rfl hc

/-- The digits of `n` have the value `n`. -/
theorem digitsValue_text (n : ℕ) : digitsValue (text n.repr) = n := by
  have hfold : ∀ (cs : List Char) (m : ℕ), (∀ c ∈ cs, c.isDigit = true) →
      (cs.map fun c => UInt8.ofNat c.toNat).foldl (fun n b => 10 * n + (b.toNat - 48)) m =
        Nat.ofDigitChars 10 cs m := by
    intro cs
    induction cs with
    | nil => exact fun m _ => rfl
    | cons c cs ih =>
        intro m hcs
        obtain ⟨hc, hcs⟩ := List.forall_mem_cons.mp hcs
        rw [List.map_cons, List.foldl_cons, (toNat_digit hc).2.2, ih _ hcs, Nat.ofDigitChars_cons]
        rfl
  rw [digitsValue, text_repr, hfold _ _ fun c => isDigit_toDigits, Nat.ofDigitChars_ten_toDigits]

/-- Every byte of a number is a digit. -/
theorem digit_of_mem_text {n : ℕ} {b : UInt8} (hb : b ∈ text n.repr) :
    48 ≤ b.toNat ∧ b.toNat ≤ 57 := by
  rw [text_repr, List.mem_map] at hb
  obtain ⟨c, hc, rfl⟩ := hb
  obtain ⟨hlow, hhigh, heq⟩ := toNat_digit (isDigit_toDigits hc)
  omega

/-- An integer is its digits, behind a `-` when it is negative. -/
theorem text_toString (z : ℤ) :
    text (toString z) = if 0 ≤ z then text z.toNat.repr else 45 :: text (-z).toNat.repr := by
  rw [Int.toString_eq_repr, Int.repr_eq_if]
  split
  · rfl
  · rw [text_append]
    rfl

/-- Every byte of an integer is a digit or the `-`. -/
theorem of_mem_text_toString {z : ℤ} {b : UInt8} (hb : b ∈ text (toString z)) :
    b = 45 ∨ 48 ≤ b.toNat ∧ b.toNat ≤ 57 := by
  rw [text_toString] at hb
  split at hb
  · exact Or.inr (digit_of_mem_text hb)
  · rcases List.mem_cons.mp hb with rfl | hb
    · exact Or.inl rfl
    · exact Or.inr (digit_of_mem_text hb)

/-- A number that was printed is read back. -/
theorem signedValue_text (z : ℤ) : signedValue (text (toString z)) = z := by
  rw [text_toString]
  split_ifs with hz
  · have hhead : ∀ bs, text z.toNat.repr ≠ 45 :: bs := by
      intro bs hbs
      have hmem : (45 : UInt8) ∈ text z.toNat.repr := by
        rw [hbs]
        exact List.mem_cons_self
      exact absurd (digit_of_mem_text hmem).1 (by decide)
    rw [signedValue.eq_2 _ hhead, digitsValue_text]
    exact Int.toNat_of_nonneg hz
  · rw [signedValue, digitsValue_text]
    omega

/-- **An integer is read back**, and nothing else is read as one. -/
theorem readDecimal_eq_some_iff {bs : Bytes} {z : ℤ} :
    readDecimal bs = some z ↔ bs = text (toString z) := by
  rw [readDecimal]
  constructor
  · intro h
    split_ifs at h with heq
    obtain rfl := Option.some.inj h
    exact heq.symm
  · rintro rfl
    rw [signedValue_text, if_pos rfl]

/-- How many bytes an integer takes. -/
theorem length_text_toString_le {z : ℤ} {k : ℕ} (hk : 0 < k) :
    (text (toString z)).length ≤ k + 1 ↔ -(10 ^ k : ℕ) < z ∧ z < (10 ^ (k + 1) : ℕ) := by
  have hlen (n : ℕ) {k : ℕ} (hk : 0 < k) : (text n.repr).length ≤ k ↔ n < 10 ^ k := by
    rw [text_repr, List.length_map]
    exact Nat.length_toDigits_le_iff (by decide) hk
  rw [text_toString]
  split_ifs with hz
  · rw [hlen _ (Nat.succ_pos k)]
    omega
  · rw [List.length_cons, Nat.add_le_add_iff_right, hlen _ hk]
    omega

end AsprNet
