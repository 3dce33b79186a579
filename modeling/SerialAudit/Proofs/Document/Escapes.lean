import SerialAudit.Proofs.Document.Quoted
import SerialAudit.Proofs.Text.Hexadecimal

/-! What a text between double marks is read back as: itself.

* `Written.IsEscape` : the escapes of a character;
* `Quoted.Ready` : the places from which the rest of a text is read.

Every escape is read as the character it was written for (`scan_escape`), and a line that goes on in the
next one leaves no trace (`exists_ready_of_continued`). -/
namespace SerialAudit.Document
set_option autoImplicit false

open Text

variable {mode : Quoted.Mode} {c : Char} {cs : List Char} {result : List Char × List Char}

namespace Quoted

/-! ## Code points -/

theorem hexDigit_toUpper_digitChar : ∀ v < 16, hexDigit? (digitChar v).toUpper = some v := by
  decide +kernel

/-- The digits of a number, with others to come. -/
theorem scan_hexDigits {width left n : Nat} (hn : n < hexBound width) (hleft : 0 < left)
    (h : scan true (.code left n) cs = .ok result) :
    scan true (.code (width + left) 0) ((hexDigits width n).map Char.toUpper ++ cs) = .ok result := by
  induction width generalizing left n cs with
  | zero =>
    obtain rfl : n = 0 := Nat.lt_one_iff.mp hn
    rw [Nat.zero_add]
    exact h
  | succ width ih =>
    have hdigit := hexDigit_toUpper_digitChar (n % 16) (Nat.mod_lt n (by decide))
    have hvalue : n / 16 * 16 + n % 16 = n := by omega
    have hmore : ¬ left + 1 ≤ 1 := by omega
    have hstep : step true (.code (left + 1) (n / 16)) (digitChar (n % 16)).toUpper cs =
        .go [] (.code left n) := by
      change inCode (left + 1) (n / 16) (digitChar (n % 16)).toUpper = _
      simp only [inCode, hdigit, hvalue, hmore, if_false, Nat.add_sub_cancel]
    have hwidth : width + 1 + left = width + (left + 1) := by omega
    have hfirst : n / 16 < hexBound width := by
      rw [hexBound] at hn
      omega
    rw [hexDigits, List.map_append, List.append_assoc, hwidth]
    exact ih hfirst (Nat.succ_pos left) (scan_of_pass hstep h)

theorem scan_upperHex {width n : Nat} (hn : n < hexBound (width + 1)) (hcode : ofCode n = .go [c] .word)
    (h : scan true .word cs = .ok result) :
    scan true (.code (width + 1) 0) ((upperHex (width + 1) n).toList ++ cs) =
      .ok (c :: result.1, result.2) := by
  have hdigit := hexDigit_toUpper_digitChar (n % 16) (Nat.mod_lt n (by decide))
  have hvalue : n / 16 * 16 + n % 16 = n := by omega
  have hstep : step true (.code 1 (n / 16)) (digitChar (n % 16)).toUpper cs = .go [c] .word := by
    change inCode 1 (n / 16) (digitChar (n % 16)).toUpper = _
    simp only [inCode, hdigit, hvalue, Nat.le_refl, if_true, hcode]
  have hfirst : n / 16 < hexBound width := by
    rw [hexBound] at hn
    omega
  rw [upperHex, String.toList_ofList, toList_hex hn, hexDigits, List.map_append, List.append_assoc]
  exact scan_hexDigits hfirst Nat.one_pos (scan_of_go hstep h)

/-- A half comes back as the character that stands for it. -/
theorem ofCode_code (c : Char) : ofCode (Written.code c) = .go [c] .word := by
  have hvalid : c.toNat < 0xD800 ∨ (0xDFFF < c.toNat ∧ c.toNat < 0x110000) := c.valid
  rw [Written.code]
  cases hhalf : halfCode? c with
  | some n =>
    rw [halfCode?, Option.ite_none_right_eq_some] at hhalf
    obtain ⟨hcode, heq⟩ := hhalf
    obtain rfl := Option.some.inj heq
    have hbounds : 0xD800 ≤ c.toNat - halfShift ∧ c.toNat - halfShift < 0xE000 := by
      have hboth := Bool.and_eq_true_iff.mp hcode
      exact ⟨of_decide_eq_true hboth.1, of_decide_eq_true hboth.2⟩
    have hback : half (c.toNat - halfShift) = c := by
      have hsum : c.toNat - halfShift + halfShift = c.toNat := by omega
      rw [half, hsum, Char.ofNat_toNat]
    rw [Option.getD_some, ofCode, if_neg (by omega), if_neg (by omega), if_pos hcode, hback]
  | none =>
    have hnot : isHalfCode c.toNat = false := by
      rw [isHalfCode, firstHalf, halfCount, Bool.and_eq_false_iff, decide_eq_false_iff_not,
        decide_eq_false_iff_not]
      omega
    rw [Option.getD_none, ofCode, if_neg (by omega), if_neg (by omega), hnot,
      if_neg Bool.false_ne_true, Char.ofNat_toNat]

theorem code_lt (c : Char) : Written.code c < 0x110000 := by
  have hcode := ofCode_code c
  rw [ofCode] at hcode
  by_contra hle
  split at hcode
  · cases hcode
  · rw [if_pos (Nat.le_of_not_lt hle)] at hcode
    cases hcode

end Quoted

/-! ## Escapes -/

/-- The escapes that a character may be written as: a letter that stands for it, or its code. -/
inductive Written.IsEscape (c : Char) : List Char → Prop
  | letter {l : Char} (h : (c, l) ∈ letters) : IsEscape c ['\\', l]
  | code {l : Char} {width : Nat} (h : (l, width + 1) ∈ Quoted.codeLengths)
    (hcode : code c < hexBound (width + 1)) :
    IsEscape c ('\\' :: l :: (upperHex (width + 1) (code c)).toList)

theorem Written.isEscape_of_escape? {e : List Char} (h : escape? c = some e) : IsEscape c e := by
  have hbounds : hexBound 2 = 0x100 ∧ hexBound 4 = 0x10000 ∧ hexBound 8 = 0x100000000 := by
    simp [hexBound]
  have hlt := Quoted.code_lt c
  rw [escape?] at h
  split at h
  · rename_i l hl
    obtain rfl := Option.some.inj h
    obtain ⟨before, after, heq, -⟩ := List.lookup_eq_some_iff.mp hl
    exact .letter (heq ▸ List.mem_append_right _ List.mem_cons_self)
  · dsimp only at h
    split at h
    · cases h
    -- the code is as wide as it has to be
    · split at h
      · rename_i hn
        obtain rfl := Option.some.inj h
        exact .code (by decide) (hbounds.1 ▸ hn)
      · split at h
        · rename_i hn
          obtain rfl := Option.some.inj h
          exact .code (by decide) (hbounds.2.1 ▸ hn)
        · obtain rfl := Option.some.inj h
          exact .code (by decide) (by rw [hbounds.2.2]; omega)

namespace Quoted

theorem step_backslash (h : mode.IsText) : step true mode '\\' cs = .go mode.text .escape := by
  rw [step_of_isText h]
  rfl

theorem scan_escape {e : List Char} (he : Written.IsEscape c e) (hmode : mode.IsText)
    (h : scan true .word cs = .ok result) :
    scan true mode (e ++ cs) = .ok (mode.text ++ c :: result.1, result.2) := by
  cases he with
  | @letter l hl =>
    have hletters : ∀ p ∈ Written.letters, escapes.lookup p.2 = some p.1 := by decide
    have hletter := hletters (c, l) hl
    have hstep : step true .escape l cs = .go [c] .word := by
      change inEscape l cs = _
      simp only [inEscape, hletter]
    exact scan_of_go (step_backslash hmode) (scan_of_go hstep h)
  | @code l width hl hcode =>
    have hlengths : ∀ p ∈ codeLengths, escapes.lookup p.1 = none ∧
        codeLengths.lookup p.1 = some p.2 := by decide
    obtain ⟨hletter, hlength⟩ := hlengths (l, width + 1) hl
    have hstep : ∀ ds, step true .escape l ds = .go [] (.code (width + 1) 0) := by
      intro ds
      change inEscape l ds = _
      simp only [inEscape, hletter, hlength]
    rw [List.cons_append, List.cons_append]
    exact scan_of_go (step_backslash hmode)
      (scan_of_pass (hstep _) (scan_upperHex hcode (ofCode_code c) h))

/-! ## Texts between double marks -/

/-- A line that goes on is read from after its line break, or from after the backslash that keeps a
space; none is so wide there that it ends again. -/
inductive Ready : Mode → Nat → List Char → Prop
  | word (column : Nat) (cs : List Char) : Ready .word column cs
  | blanks (held : List Char) (column : Nat) (cs : List Char) : Ready (.blanks held) column cs
  | line {column : Nat} {cs : List Char} (hcolumn : column ≤ Written.width) (h : cs.head? ≠ some ' ') :
    Ready (.breaks none []) column cs
  | escape {column : Nat} {cs : List Char} (hcolumn : column ≤ Written.width)
    (h : cs.head? = some ' ') : Ready .escape column cs

/-- The text goes on there, unless a space comes next that a backslash keeps. -/
theorem Ready.isText_or {column : Nat} (h : Ready mode column cs) :
    mode.IsText ∨ (column ≤ Written.width ∧ cs.head? = some ' ') := by
  cases h with
  | word => exact .inl trivial
  | blanks => exact .inl trivial
  | line => exact .inl trivial
  | escape hcolumn hhead => exact .inr ⟨hcolumn, hhead⟩

theorem scan_lineStart (hmode : mode.IsText) (h : scan true (.breaks none []) cs = .ok result) :
    scan true mode ('\\' :: Written.lineStart ++ cs) = .ok (mode.text ++ result.1, result.2) := by
  have hmarker : atMarker (List.replicate Written.indentation ' ' ++ cs) = false :=
    atMarker_cons (by decide) (by decide) _
  have hstep : step true .escape '\n' (List.replicate Written.indentation ' ' ++ cs) =
      .go [] (.breaks none []) := by
    change inEscape '\n' (List.replicate Written.indentation ' ' ++ cs) = .go [] (.breaks none [])
    have hletter : escapes.lookup '\n' = none := by decide
    have hlength : codeLengths.lookup '\n' = none := by decide
    simp only [inEscape, hletter, hlength, ofBreak, hmarker]
    rfl
  exact scan_of_go (step_backslash hmode)
    (scan_of_pass hstep (scan_indentation Written.indentation h))

theorem exists_ready_of_continued (hmode : mode.IsText) (ds : List Char) :
    ∃ next, Ready next (Written.continued ds).2 ds ∧ next.text = [] ∧
      ∀ cs result, scan true next cs = .ok result →
        scan true mode ((Written.continued ds).1 ++ cs) = .ok (mode.text ++ result.1, result.2) := by
  rw [Written.continued]
  by_cases hspace : ds.head? = some ' '
  · rw [if_pos hspace]
    refine ⟨.escape, .escape (by decide) hspace, rfl, fun cs result h => ?_⟩
    have hslash : scan true (.breaks none []) ('\\' :: cs) = .ok result :=
      scan_of_pass (step_backslash trivial) h
    dsimp only
    rw [List.append_assoc, List.singleton_append]
    exact scan_lineStart hmode hslash
  · rw [if_neg hspace]
    exact ⟨.breaks none [], .line (by decide) hspace, rfl, fun cs result h => scan_lineStart hmode h⟩

theorem not_special_of_escape?_eq_none (h : Written.escape? c = none) :
    c ≠ '"' ∧ c ≠ '\\' ∧ (c ≠ ' ' → isGap c = false) := by
  refine ⟨?_, ?_, fun hspace => ?_⟩
  · rintro rfl
    exact absurd h (by decide)
  · rintro rfl
    exact absurd h (by decide)
  · by_contra hgap
    have hall : ['\t', '\n', '\x85', '\u2028', '\u2029'].all
        (fun d => (Written.escape? d).isSome) = true := by
      decide
    have hmem : c ∈ ['\t', '\n', '\x85', '\u2028', '\u2029'] := by
      simp only [isGap, isBlank, isBreak, Bool.not_eq_false, Bool.or_eq_true, decide_eq_true_eq,
        hspace, false_or] at hgap
      simpa [or_assoc] using hgap
    have hsome := List.all_eq_true.mp hall c hmem
    rw [h] at hsome
    cases hsome

/-- A character that stands for itself leads to a place in the text. -/
theorem exists_ready_of_char {column : Nat} (hready : Ready mode column (c :: cs))
    (h : Written.escape? c = none) :
    ∃ next, (∀ column', Ready next column' cs) ∧ ∀ ds text rest,
      scan true next ds = .ok (next.text ++ text, rest) →
        scan true mode (c :: ds) = .ok (mode.text ++ c :: text, rest) := by
  obtain ⟨hquote, hslash, hgap⟩ := not_special_of_escape?_eq_none h
  by_cases hspace : c = ' '
  · subst hspace
    cases hready with
    | word =>
      exact ⟨.blanks [' '], fun column' => .blanks _ column' cs, fun ds text rest hds =>
        scan_of_pass (step_blank trivial rfl) hds⟩
    | blanks held =>
      refine ⟨.blanks (' ' :: held), fun column' => .blanks _ column' cs, fun ds text rest hds => ?_⟩
      rw [Mode.text, List.reverse_cons, List.append_assoc] at hds
      exact scan_of_pass (step_blank trivial rfl) hds
    | line hcolumn hhead => exact absurd rfl hhead
    | escape =>
      refine ⟨.word, fun column' => .word column' cs, fun ds text rest hds => ?_⟩
      have hstep : step true .escape ' ' ds = .go [' '] .word := rfl
      exact scan_of_go hstep hds
  · have hmode := hready.isText_or.resolve_right fun h => hspace (Option.some.inj h.2)
    refine ⟨.word, fun column' => .word column' cs, fun ds text rest hds => ?_⟩
    have hgo := scan_of_go (step_char_double hmode (hgap hspace) hquote hslash) hds
    rwa [List.append_assoc] at hgo

theorem scan_escapes {column : Nat} (hready : Ready mode column cs) (first fresh : Bool)
    (rest : List Char) :
    scan true mode (Written.escapes first fresh column cs ++ rest) = .ok (mode.text ++ cs, rest) := by
  induction cs generalizing mode column first fresh with
  | nil =>
    have hmode := hready.isText_or.resolve_right fun h => absurd h.2.symm (Option.some_ne_none ' ')
    have hstep : step true mode '"' rest = .stop mode.text true := by
      rw [step_of_isText hmode]
      rfl
    rw [Written.escapes, List.append_nil, List.singleton_append, scan, hstep]
    rfl
  | cons c cs ih =>
    have hword : Mode.word.text = [] := rfl
    rw [Written.escapes]
    dsimp only
    cases he : Written.escape? c with
    | some e =>
      have hescape := Written.isEscape_of_escape? he
      have hmode : mode.IsText := hready.isText_or.resolve_right fun h => by
        obtain rfl : c = ' ' := Option.some.inj h.2
        have hnone : Written.escape? ' ' = none := by decide
        exact absurd (he.symm.trans hnone) (Option.some_ne_none e)
      dsimp only
      -- an escape ends like a word, whether the line goes on after it or not
      split
      · have hstart : Mode.word.IsText := trivial
        obtain ⟨next, hnext, htext, hscan⟩ := exists_ready_of_continued hstart cs
        have hrest := hscan _ _ (ih hnext false true)
        rw [htext] at hrest
        simpa [hword] using scan_escape hescape hmode hrest
      · simpa [hword] using scan_escape hescape hmode (ih (.word _ cs) false true)
    | none =>
      dsimp only
      split
      · rename_i hwide
        -- a line that has just begun is not wide
        have hmode : mode.IsText := hready.isText_or.resolve_right fun h => by
          simp only [Bool.and_eq_true, decide_eq_true_eq] at hwide
          exact Nat.not_lt_of_le h.1 hwide.2
        obtain ⟨next, hnext, htext, hscan⟩ := exists_ready_of_continued hmode (c :: cs)
        obtain ⟨last, hlast, hchar⟩ := exists_ready_of_char hnext he
        have hrest := hchar _ _ _ (ih (hlast ((Written.continued (c :: cs)).2 + 1)) false false)
        rw [htext] at hrest
        rw [List.append_assoc, List.cons_append]
        exact hscan _ _ hrest
      · obtain ⟨next, hnext, hscan⟩ := exists_ready_of_char hready he
        simpa using hscan _ _ _ (ih (hnext (column + 1)) false false)

end Quoted
end SerialAudit.Document
