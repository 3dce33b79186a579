import SerialAudit.Text.Utf8

/-! Texts and their octets.

Reading octets part by part is reading them at once (`feed_append`), and the octets of a text are read as
that text with nothing left unfinished (`feed_encode`). -/
namespace SerialAudit.Text.Utf8
set_option autoImplicit false

/-! ## Reading in parts -/

theorem feed_append (p : Option Pending) (as bs : List UInt8) :
    feed? p (as ++ bs) =
      (feed? p as).bind fun r => (feed? r.2 bs).map fun q => (r.1 ++ q.1, q.2) := by
  induction as generalizing p with
  | nil => cases h : feed? p bs <;> simp [feed?, h]
  | cons a as ih =>
    cases p with
    | none =>
      rw [List.cons_append, feed?, feed?]
      cases lead a.toNat with
      | single c =>
        simp only [ih none]
        cases feed? none as with
        | none => rfl
        | some r => cases h : feed? r.2 bs <;> simp [h]
      | opens p => exact ih (some p)
      | refused => rfl
    | some p =>
      rw [List.cons_append, feed?, feed?]
      by_cases hrange : p.least ≤ a.toNat ∧ a.toNat ≤ p.greatest
      · rw [if_pos hrange, if_pos hrange]
        by_cases howed : (p.push a.toNat).owed = 0
        · simp only [howed, if_true, ih none]
          cases feed? none as with
          | none => rfl
          | some r => cases h : feed? r.2 bs <;> simp [h]
        · simp only [howed, if_false, ih]
      · rw [if_neg hrange, if_neg hrange]
        rfl

/-! ## One character -/

theorem toNat_ofNat {b : Nat} (hb : b < 0x100) : (UInt8.ofNat b).toNat = b := by
  rw [UInt8.toNat_ofNat']
  exact Nat.mod_eq_of_lt hb

theorem Pending.bits_push (p : Pending) (b : Nat) : (p.push b).bits = p.bits * 0x40 + (b - 0x80) := rfl

theorem Pending.owed_push (p : Pending) (b : Nat) : (p.push b).owed = p.owed - 1 := rfl

theorem Pending.least_push (p : Pending) (b : Nat) : (p.push b).least = 0x80 := rfl

theorem Pending.greatest_push (p : Pending) (b : Nat) : (p.push b).greatest = 0xBF := rfl

/-- An octet that does not complete the character. -/
theorem feed_owing {p : Pending} {b : Nat} (hb : b < 0x100) (hleast : p.least ≤ b)
    (hgreatest : b ≤ p.greatest) (howed : 2 ≤ p.owed) (bs : List UInt8) :
    feed? (some p) (UInt8.ofNat b :: bs) = feed? (some (p.push b)) bs := by
  have hbyte : (UInt8.ofNat b).toNat = b := toNat_ofNat hb
  have hleft : (p.push b).owed ≠ 0 := by
    rw [Pending.owed_push]
    omega
  rw [feed?]
  simp only [hbyte, hleast, hgreatest, and_self, if_true, hleft, if_false]

/-- The octet that completes the character. -/
theorem feed_last {p : Pending} {b : Nat} (hb : b < 0x100) (hleast : p.least ≤ b)
    (hgreatest : b ≤ p.greatest) (howed : p.owed = 1) (bs : List UInt8) :
    feed? (some p) (UInt8.ofNat b :: bs) =
      (feed? none bs).map fun r => (Char.ofNat (p.bits * 0x40 + (b - 0x80)) :: r.1, r.2) := by
  have hbyte : (UInt8.ofNat b).toNat = b := toNat_ofNat hb
  have hdone : (p.push b).owed = 0 := by
    rw [Pending.owed_push]
    omega
  rw [feed?]
  simp only [hbyte, hleast, hgreatest, and_self, if_true, hdone]
  rfl

/-- The last two octets of a character. -/
theorem feed_last_two {p : Pending} {n : Nat} (hleast : p.least ≤ 0x80 + n / 0x40 % 0x40)
    (hgreatest : 0x80 + n / 0x40 % 0x40 ≤ p.greatest) (howed : p.owed = 2) (bs : List UInt8) :
    feed? (some p) (UInt8.ofNat (0x80 + n / 0x40 % 0x40) :: UInt8.ofNat (0x80 + n % 0x40) :: bs) =
      (feed? none bs).map fun r =>
        (Char.ofNat ((p.bits * 0x40 + n / 0x40 % 0x40) * 0x40 + n % 0x40) :: r.1, r.2) := by
  rw [feed_owing (by omega) hleast hgreatest (by omega),
    feed_last (by omega) (by rw [Pending.least_push]; omega) (by rw [Pending.greatest_push]; omega)
      (by rw [Pending.owed_push]; omega),
    Pending.bits_push, Nat.add_sub_cancel_left, Nat.add_sub_cancel_left]

theorem feed_opening {b : Nat} {p : Pending} (hb : b < 0x100) (h : lead b = .opens p)
    (bs : List UInt8) : feed? none (UInt8.ofNat b :: bs) = feed? (some p) bs := by
  have hbyte : (UInt8.ofNat b).toNat = b := toNat_ofNat hb
  rw [feed?, hbyte, h]

/-- The octet that opens a character of three octets, and the bounds of the one after it. -/
theorem lead_three {n : Nat} (hleast : 0x800 ≤ n) (hvalid : n < 0xD800 ∨ 0xDFFF < n)
    (hgreatest : n < 0x10000) : ∃ p, lead (0xE0 + n / 0x1000) = .opens p ∧ p.bits = n / 0x1000 ∧
      p.owed = 2 ∧ p.least ≤ 0x80 + n / 0x40 % 0x40 ∧ 0x80 + n / 0x40 % 0x40 ≤ p.greatest := by
  unfold lead
  rw [if_neg (by omega), if_neg (by omega), if_neg (by omega)]
  by_cases hfirst : 0xE0 + n / 0x1000 = 0xE0
  · rw [if_pos hfirst]
    exact ⟨_, rfl, by simp only; omega, rfl, by simp only; omega, by simp only; omega⟩
  · rw [if_neg hfirst]
    by_cases hhalf : 0xE0 + n / 0x1000 = 0xED
    · rw [if_pos hhalf]
      exact ⟨_, rfl, by simp only; omega, rfl, by simp only; omega, by simp only; omega⟩
    · rw [if_neg hhalf, if_pos (by omega)]
      exact ⟨_, rfl, by simp only; omega, rfl, by simp only; omega, by simp only; omega⟩

/-- The same for four octets. -/
theorem lead_four {n : Nat} (hleast : 0x10000 ≤ n) (hgreatest : n < 0x110000) :
    ∃ p, lead (0xF0 + n / 0x40000) = .opens p ∧ p.bits = n / 0x40000 ∧ p.owed = 3 ∧
      p.least ≤ 0x80 + n / 0x1000 % 0x40 ∧ 0x80 + n / 0x1000 % 0x40 ≤ p.greatest := by
  unfold lead
  rw [if_neg (by omega), if_neg (by omega), if_neg (by omega), if_neg (by omega), if_neg (by omega),
    if_neg (by omega)]
  by_cases hfirst : 0xF0 + n / 0x40000 = 0xF0
  · rw [if_pos hfirst]
    exact ⟨_, rfl, by simp only; omega, rfl, by simp only; omega, by simp only; omega⟩
  · rw [if_neg hfirst]
    by_cases hlast : 0xF0 + n / 0x40000 < 0xF4
    · rw [if_pos hlast]
      exact ⟨_, rfl, by simp only; omega, rfl, by simp only; omega, by simp only; omega⟩
    · rw [if_neg hlast, if_pos (by omega)]
      exact ⟨_, rfl, by simp only; omega, rfl, by simp only; omega, by simp only; omega⟩

theorem feed_encodeChar (c : Char) (bs : List UInt8) :
    feed? none (encodeChar c ++ bs) = (feed? none bs).map fun r => (c :: r.1, r.2) := by
  have hchar : Char.ofNat c.toNat = c := Char.ofNat_toNat c
  have hvalid : c.toNat < 0xD800 ∨ (0xDFFF < c.toNat ∧ c.toNat < 0x110000) := c.valid
  generalize hn : c.toNat = n at hchar hvalid
  have hshift : n >>> 6 = n / 0x40 ∧ n >>> 12 = n / 0x1000 :=
    ⟨Nat.shiftRight_eq_div_pow n 6, Nat.shiftRight_eq_div_pow n 12⟩
  -- one octet, two, three or four, by the bounds of the code point
  unfold encodeChar
  simp only [hn, Nat.mul_zero, Nat.mul_one, Nat.reduceMul, Nat.shiftRight_zero, hshift]
  by_cases h1 : n < 0x80
  · rw [if_pos h1, List.singleton_append, feed?, toNat_ofNat (by omega), lead, if_pos h1, hchar]
  by_cases h2 : n < 0x800
  · have hlead : lead (0xC0 + n / 0x40) = .opens ⟨n / 0x40, 1, 0x80, 0xBF⟩ := by
      rw [lead, if_neg (by omega), if_neg (by omega), if_pos (by omega)]
      simp
    rw [if_neg h1, if_pos h2, List.cons_append, feed_opening (by omega) hlead, List.singleton_append,
      feed_last (by omega) (by simp) (by simp only; omega) rfl]
    have hcode : n / 0x40 * 0x40 + (0x80 + n % 0x40 - 0x80) = n := by omega
    simp only [hcode, hchar]
  by_cases h3 : n < 0x10000
  · obtain ⟨p, hlead, hbits, howed, hleast, hgreatest⟩ :=
      lead_three (Nat.le_of_not_lt h2) (hvalid.imp_right And.left) h3
    rw [if_neg h1, if_neg h2, if_pos h3]
    simp only [List.cons_append, List.nil_append]
    have hcode : (n / 0x1000 * 0x40 + n / 0x40 % 0x40) * 0x40 + n % 0x40 = n := by omega
    rw [feed_opening (by omega) hlead, feed_last_two hleast hgreatest howed, hbits, hcode, hchar]
  · obtain ⟨p, hlead, hbits, howed, hleast, hgreatest⟩ :=
      lead_four (n := n) (by omega) (by omega)
    rw [if_neg h1, if_neg h2, if_neg h3]
    simp only [List.cons_append, List.nil_append]
    have hcode : ((n / 0x40000 * 0x40 + n / 0x1000 % 0x40) * 0x40 + n / 0x40 % 0x40) * 0x40 + n % 0x40 =
        n := by omega
    rw [feed_opening (by omega) hlead, feed_owing (by omega) hleast hgreatest (by omega),
      feed_last_two (by rw [Pending.least_push]; omega) (by rw [Pending.greatest_push]; omega)
        (by rw [Pending.owed_push]; omega),
      Pending.bits_push, Nat.add_sub_cancel_left, hbits, hcode, hchar]

/-! ## Texts -/

theorem feed_encode (cs : List Char) : feed? none (encode cs) = some (cs, none) := by
  induction cs with
  | nil => rfl
  | cons c cs ih =>
    change feed? none (encodeChar c ++ encode cs) = _
    rw [feed_encodeChar, ih]
    rfl

theorem length_le_length_encode (cs : List Char) : cs.length ≤ (encode cs).length := by
  induction cs with
  | nil => exact Nat.le_refl 0
  | cons c cs ih =>
    have hc : 1 ≤ (encodeChar c).length := by
      unfold encodeChar
      dsimp only
      repeat' split
      all_goals simp
    change cs.length + 1 ≤ (encodeChar c ++ encode cs).length
    rw [List.length_append]
    omega

end SerialAudit.Text.Utf8
