import SerialAudit.Text.Numeral

/-! Decimal numerals, said by what they stand for.

* `digitsValue` : the number that a row of decimal digits stands for;
* `IsDecimal`, `IsNumeral` : the canonical numeral of a natural number and of an integer.

Every number has exactly one of them, and it is the one that is written (`isDecimal_iff`,
`isNumeral_iff`). -/
namespace SerialAudit.Text
set_option autoImplicit false

/-! ## Digits -/

def digitsValue (ds : List Char) : Nat := ds.foldl (fun n c => n * 10 + (c.toNat - 0x30)) 0

/-- Digits without a leading zero, except for zero itself. -/
structure IsDecimal (n : Nat) (ds : List Char) : Prop where
  ne_nil : ds ≠ []
  digits : ∀ c ∈ ds, c.isDigit = true
  lead : ds.head? = some '0' → ds = ['0']
  value : digitsValue ds = n

/-- A minus sign stands before the numeral of a negative number only. -/
inductive IsNumeral (n : Int) : List Char → Prop
  | natural {ds : List Char} (hn : 0 ≤ n) (h : IsDecimal n.natAbs ds) : IsNumeral n ds
  | negative {ds : List Char} (hn : n < 0) (h : IsDecimal n.natAbs ds) : IsNumeral n ('-' :: ds)

theorem isDigit_iff (c : Char) : c.isDigit = true ↔ 0x30 ≤ c.toNat ∧ c.toNat ≤ 0x39 := by
  have hrange : c.isDigit = (decide (0x30 ≤ c.val) && decide (c.val ≤ 0x39)) := rfl
  rw [hrange, Bool.and_eq_true, decide_eq_true_eq, decide_eq_true_eq, UInt32.le_iff_toNat_le,
    UInt32.le_iff_toNat_le]
  rfl

theorem toNat_digitChar {d : Nat} (hd : d < 10) : (digitChar d).toNat = 0x30 + d := by
  have hall : ∀ d < 10, (digitChar d).toNat = 0x30 + d := by decide
  exact hall d hd

theorem isDigit_digitChar {d : Nat} (hd : d < 10) : (digitChar d).isDigit = true := by
  rw [isDigit_iff, toNat_digitChar hd]
  omega

theorem exists_digitChar {c : Char} (h : c.isDigit = true) : ∃ d < 10, c = digitChar d := by
  obtain ⟨hlow, hhigh⟩ := (isDigit_iff c).mp h
  have hd : c.toNat - 0x30 < 10 := by omega
  refine ⟨c.toNat - 0x30, hd, Char.toNat_inj.mp ?_⟩
  rw [toNat_digitChar hd]
  omega

theorem digitsValue_concat (ds : List Char) {d : Nat} (hd : d < 10) :
    digitsValue (ds ++ [digitChar d]) = digitsValue ds * 10 + d := by
  simp only [digitsValue, List.foldl_append, List.foldl_cons, List.foldl_nil, toNat_digitChar hd,
    Nat.add_sub_cancel_left]

theorem digitsValue_pos {c : Char} {cs : List Char} (hc : c.isDigit = true) (hne : c ≠ '0') :
    0 < digitsValue (c :: cs) := by
  -- the value only grows from digit to digit
  have hgrows : ∀ (cs : List Char) (n : Nat), n ≤ cs.foldl (fun n c => n * 10 + (c.toNat - 0x30)) n := by
    intro cs
    induction cs with
    | nil => exact Nat.le_refl
    | cons c cs ih =>
      intro n
      exact Nat.le_trans (by omega : n ≤ n * 10 + (c.toNat - 0x30)) (ih _)
  have hcode : c.toNat ≠ 0x30 := fun h => hne (Char.toNat_inj.mp h)
  have hfirst : 0 < 0 * 10 + (c.toNat - 0x30) := by
    have hrange := (isDigit_iff c).mp hc
    omega
  exact Nat.lt_of_lt_of_le hfirst (hgrows cs _)

/-! ## Numerals of natural numbers -/

theorem isDecimal_digit {d : Nat} (hd : d < 10) : IsDecimal d [digitChar d] where
  ne_nil := List.cons_ne_nil _ _
  digits := List.forall_mem_singleton.mpr (isDigit_digitChar hd)
  lead h := by rw [Option.some.inj h]
  value := by simpa [digitsValue] using digitsValue_concat [] hd

theorem IsDecimal.concat {n d : Nat} {ds : List Char} (h : IsDecimal n ds) (hn : 0 < n) (hd : d < 10) :
    IsDecimal (n * 10 + d) (ds ++ [digitChar d]) where
  ne_nil := List.append_ne_nil_of_left_ne_nil h.ne_nil _
  digits := List.forall_mem_append.mpr
    ⟨h.digits, List.forall_mem_singleton.mpr (isDigit_digitChar hd)⟩
  lead hlead := by
    have hhead : ds.head? = some '0' := by
      rwa [List.head?_append, List.head?_eq_some_head h.ne_nil, Option.some_or,
        ← List.head?_eq_some_head h.ne_nil] at hlead
    have hzero : digitsValue ds = 0 := by
      rw [h.lead hhead]
      rfl
    rw [h.value] at hzero
    omega
  value := by rw [digitsValue_concat ds hd, h.value]

/-- The numeral of a number from ten on is that of its tenth, with one more digit. -/
theorem IsDecimal.eq_concat {n : Nat} {ds : List Char} (h : IsDecimal n ds) :
    (n < 10 ∧ ds = [digitChar n]) ∨
      (10 ≤ n ∧ ∃ es, IsDecimal (n / 10) es ∧ ds = es ++ [digitChar (n % 10)]) := by
  obtain ⟨es, c, hlast⟩ := (List.eq_nil_or_concat ds).resolve_left h.ne_nil
  rw [List.concat_eq_append] at hlast
  subst hlast
  obtain ⟨hes, hc⟩ := List.forall_mem_append.mp h.digits
  obtain ⟨d, hd, rfl⟩ := exists_digitChar (hc c (List.mem_singleton_self c))
  have hvalue := h.value
  rw [digitsValue_concat es hd] at hvalue
  cases es with
  | nil =>
    obtain rfl : d = n := by simpa [digitsValue] using hvalue
    exact Or.inl ⟨hd, rfl⟩
  | cons e es =>
    have hlead : (e :: es).head? ≠ some '0' := fun he => by simpa using congrArg List.length (h.lead he)
    have hpos : 0 < digitsValue (e :: es) :=
      digitsValue_pos (hes e List.mem_cons_self) fun he => hlead (congrArg some he)
    have hdiv : n / 10 = digitsValue (e :: es) := by omega
    have hmod : n % 10 = d := by omega
    refine Or.inr ⟨by omega, e :: es, ⟨List.cons_ne_nil e es, hes, fun he => absurd he hlead, hdiv.symm⟩, ?_⟩
    rw [hmod]

theorem IsDecimal.unique {n : Nat} {ds es : List Char} (hds : IsDecimal n ds) (hes : IsDecimal n es) :
    ds = es := by
  induction n using Nat.strongRecOn generalizing ds es with
  | ind n ih =>
    rcases hds.eq_concat with ⟨hn, rfl⟩ | ⟨hn, ds', hds', rfl⟩ <;>
      rcases hes.eq_concat with ⟨hn', rfl⟩ | ⟨hn', es', hes', rfl⟩
    · rfl
    · omega
    · omega
    · rw [ih (n / 10) (by omega) hds' hes']

theorem exists_digitsBefore {fuel n : Nat} (hfuel : n < fuel) (tail : List Char) :
    ∃ ds, IsDecimal n ds ∧ digitsBefore 10 fuel n tail = ds ++ tail := by
  induction fuel generalizing n tail with
  | zero => exact absurd hfuel (Nat.not_lt_zero n)
  | succ fuel ih =>
    rw [digitsBefore]
    by_cases hn : n < 10
    · refine ⟨[digitChar n], isDecimal_digit hn, ?_⟩
      simp only [hn, if_true, Nat.mod_eq_of_lt hn, List.singleton_append]
    · have hsmaller : n / 10 < fuel := by omega
      obtain ⟨ds, hds, hbefore⟩ := ih hsmaller (digitChar (n % 10) :: tail)
      have hwhole : n / 10 * 10 + n % 10 = n := by omega
      have hnumeral := hds.concat (by omega : 0 < n / 10) (by omega : n % 10 < 10)
      rw [hwhole] at hnumeral
      refine ⟨ds ++ [digitChar (n % 10)], hnumeral, ?_⟩
      simp only [hn, if_false, hbefore, List.append_assoc, List.singleton_append]

theorem isDecimal_iff (n : Nat) (ds : List Char) : IsDecimal n ds ↔ ds = (decimal n).toList := by
  obtain ⟨es, hes, hbefore⟩ := exists_digitsBefore (Nat.lt_succ_self n) []
  have hwritten : (decimal n).toList = es := by
    rw [decimal, String.toList_ofList, hbefore, List.append_nil]
  rw [hwritten]
  constructor
  · intro hds
    exact hds.unique hes
  · rintro rfl
    exact hes

/-! ## Numerals of integers -/

theorem isNumeral_iff (n : Int) (cs : List Char) : IsNumeral n cs ↔ cs = (signed n).toList := by
  cases n with
  | ofNat n =>
    have hwritten := isDecimal_iff n cs
    constructor
    · intro h
      cases h with
      | natural hn h => exact hwritten.mp h
      | negative hn h => exact absurd hn (Int.not_lt.mpr (Int.natCast_nonneg n))
    · intro h
      exact .natural (Int.natCast_nonneg n) (hwritten.mpr h)
  | negSucc n =>
    have hsigned : (signed (.negSucc n)).toList = '-' :: (decimal (n + 1)).toList :=
      String.toList_append
    rw [hsigned]
    constructor
    · intro h
      cases h with
      | natural hn h => exact absurd hn (by omega)
      | negative hn h => rw [(isDecimal_iff (n + 1) _).mp h]
    · rintro rfl
      exact .negative (by omega) ((isDecimal_iff (n + 1) _).mpr rfl)

theorem not_isDecimal_minus {n : Nat} {ds : List Char} : ¬ IsDecimal n ('-' :: ds) := fun h =>
  absurd (h.digits '-' List.mem_cons_self) (by decide)

/-- A numeral stands for one number only. -/
theorem IsNumeral.eq {m n : Int} {cs : List Char} (hm : IsNumeral m cs) (hn : IsNumeral n cs) :
    m = n := by
  cases hm with
  | natural hm hds =>
    cases hn with
    | natural hn hes =>
      have hvalue := hds.value.symm.trans hes.value
      omega
    | negative => exact absurd hds not_isDecimal_minus
  | negative hm hds =>
    cases hn with
    | natural hn hes => exact absurd hes not_isDecimal_minus
    | negative hn hes =>
      have hvalue := hds.value.symm.trans hes.value
      omega

/-- No word is a numeral unless it begins like one. -/
theorem signed_ne {n : Int} {s : String} {c : Char} {cs : List Char} (hs : s.toList = c :: cs)
    (hsign : c ≠ '-') (hdigit : c.isDigit = false) : signed n ≠ s := by
  intro h
  have hnumeral : IsNumeral n (c :: cs) := (isNumeral_iff n _).mpr (by rw [h, hs])
  cases hnumeral with
  | natural hn hds =>
    have hc := hds.digits c List.mem_cons_self
    rw [hdigit] at hc
    exact Bool.noConfusion hc
  | negative hn hds => exact hsign rfl

theorem signed_ne_empty (n : Int) : signed n ≠ "" := by
  intro h
  have hnumeral : IsNumeral n [] := (isNumeral_iff n _).mpr (by rw [h, String.toList_empty])
  cases hnumeral with
  | natural hn hds => exact hds.ne_nil rfl

theorem signed_inj {m n : Int} : signed m = signed n ↔ m = n := by
  constructor
  · intro h
    exact ((isNumeral_iff m _).mpr rfl).eq ((isNumeral_iff n _).mpr (congrArg String.toList h))
  · exact congrArg signed

end SerialAudit.Text
