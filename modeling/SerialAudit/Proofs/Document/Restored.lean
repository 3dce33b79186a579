import SerialAudit.Proofs.Document.Escapes
import SerialAudit.Proofs.Document.Plain

/-! Written scalars: what they consist of, and what they are read back as.

* `Written.Clean` : texts that a document may hold, without carriage returns;
* `Written.restored` : a text as it is read back.

Every written scalar is clean (`clean_scalar`), and every text is read back as itself but for those that
hold a next-line control and are written between apostrophes (`restored_eq_self_iff`). -/
namespace SerialAudit.Document
set_option autoImplicit false

open Text

namespace Written

/-! ## Clean texts -/

def Clean (cs : List Char) : Prop := ∀ c ∈ cs, isAdmitted c = true ∧ c ≠ '\r'

theorem clean_nil : Clean [] := fun _ h => absurd h List.not_mem_nil

theorem clean_cons {c : Char} {cs : List Char} :
    Clean (c :: cs) ↔ (isAdmitted c = true ∧ c ≠ '\r') ∧ Clean cs :=
  List.forall_mem_cons

theorem clean_append {cs ds : List Char} : Clean (cs ++ ds) ↔ Clean cs ∧ Clean ds :=
  List.forall_mem_append

theorem Clean.mono {cs ds : List Char} (h : Clean ds) (hsub : ∀ c ∈ cs, c ∈ ds) : Clean cs :=
  fun c hc => h c (hsub c hc)

theorem clean_replicate (n : Nat) : Clean (List.replicate n ' ') := by
  intro c hc
  rw [List.eq_of_mem_replicate hc]
  decide

theorem clean_lineStart : Clean lineStart :=
  clean_cons.mpr ⟨by decide, clean_replicate indentation⟩

/-- The code point of a character is its own, or that of a half. -/
theorem code_eq_or (c : Char) : code c = c.toNat ∨ (0xD800 ≤ code c ∧ code c < 0xE000) := by
  rw [code]
  cases hhalf : halfCode? c with
  | none => exact .inl rfl
  | some n =>
    rw [halfCode?, Option.ite_none_right_eq_some] at hhalf
    obtain ⟨hcode, heq⟩ := hhalf
    obtain rfl := Option.some.inj heq
    obtain ⟨hlow, hhigh⟩ := Bool.and_eq_true_iff.mp hcode
    rw [Option.getD_some]
    exact .inr ⟨of_decide_eq_true hlow, of_decide_eq_true hhigh⟩

theorem clean_of_ranges {c : Char} {ranges : List (Nat × Nat)} (h : inRanges ranges (code c) = true)
    (hranges : ∀ r ∈ ranges, (r.2 < 0xD800 ∨ 0xE000 ≤ r.1) ∧ 0x20 ≤ r.1 ∧
      ∃ a ∈ admitted, a.1 ≤ r.1 ∧ r.2 ≤ a.2) : isAdmitted c = true ∧ c ≠ '\r' := by
  obtain ⟨r, hr, hlow, hhigh⟩ := (inRanges_iff ranges (code c)).mp h
  obtain ⟨hhalf, hfirst, a, ha, hle, hge⟩ := hranges r hr
  have hcode : code c = c.toNat := (code_eq_or c).resolve_right (by omega)
  rw [hcode] at hlow hhigh
  refine ⟨(inRanges_iff admitted c.toNat).mpr ⟨a, ha, by omega, by omega⟩, ?_⟩
  rintro rfl
  have hreturn : '\r'.toNat = 0x0D := rfl
  omega

theorem clean_of_isShown {c : Char} (h : isShown c = true) : isAdmitted c = true ∧ c ≠ '\r' := by
  rw [isShown, Bool.or_eq_true, decide_eq_true_eq] at h
  cases h with
  | inl hline => exact hline ▸ ⟨by decide, by decide⟩
  | inr hcode => exact clean_of_ranges hcode (by decide)

/-! ## Written texts are clean -/

/-- What is held consists of clean characters. -/
def Held.IsClean : Held → Prop
  | breaks bs => Clean bs
  | _ => True

theorem Held.IsClean.release {held : Held} (h : held.IsClean) (column : Nat) (atEnd : Bool) :
    Clean (held.release column atEnd).1 := by
  cases held with
  | none => exact clean_nil
  | spaces count inside =>
    rw [Held.release]
    split
    · exact clean_lineStart
    · exact clean_replicate count
  | breaks bs =>
    have hline : Clean (if bs.getLast? = some '\n' then ['\n'] else []) := by
      split
      · exact clean_cons.mpr ⟨by decide, clean_nil⟩
      · exact clean_nil
    exact clean_append.mpr ⟨clean_append.mpr ⟨hline, h.mono fun c hc => List.mem_reverse.mp hc⟩,
      clean_replicate indentation⟩

theorem clean_runs {cs : List Char} (hcs : Clean cs) (held : Held) (hheld : held.IsClean)
    (quote first : Bool) (column : Nat) : Clean (runs quote first column held cs) := by
  induction cs generalizing held first column with
  | nil =>
    rw [runs]
    refine clean_append.mpr ⟨hheld.release column true, ?_⟩
    split
    · exact clean_cons.mpr ⟨by decide, clean_nil⟩
    · exact clean_nil
  | cons c cs ih =>
    obtain ⟨hc, htail⟩ := clean_cons.mp hcs
    rw [runs.eq_def]
    dsimp only
    split
    · split
      · exact ih htail (.spaces _ _) trivial _ _
      · exact clean_append.mpr ⟨hheld.release column false, ih htail (.spaces _ _) trivial _ _⟩
    · split
      · split
        · exact ih htail (.breaks _) (clean_cons.mpr ⟨hc, hheld⟩) _ _
        · exact clean_append.mpr ⟨hheld.release column false,
            ih htail (.breaks _) (clean_cons.mpr ⟨hc, clean_nil⟩) _ _⟩
      · split
        · refine clean_append.mpr ⟨hheld.release column false, ?_⟩
          exact clean_cons.mpr ⟨by decide, clean_cons.mpr ⟨by decide, ih htail .none trivial _ _⟩⟩
        · refine clean_append.mpr ⟨hheld.release column false, ?_⟩
          exact clean_cons.mpr ⟨hc, ih htail .none trivial _ _⟩

theorem clean_upperHex {width n : Nat} (hn : n < hexBound (width + 1)) :
    Clean (upperHex (width + 1) n).toList := by
  have hdigit : ∀ v < 16, isAdmitted (digitChar v).toUpper = true ∧ (digitChar v).toUpper ≠ '\r' := by
    decide +kernel
  have hall : ∀ width n, Clean ((hexDigits width n).map Char.toUpper) := by
    intro width
    induction width with
    | zero => exact fun n => clean_nil
    | succ width ih =>
      intro n
      rw [hexDigits, List.map_append]
      exact clean_append.mpr ⟨ih (n / 16), clean_cons.mpr
        ⟨hdigit (n % 16) (Nat.mod_lt n (by decide)), clean_nil⟩⟩
  rw [upperHex, String.toList_ofList, toList_hex hn]
  exact hall (width + 1) n

theorem clean_escape {c : Char} {e : List Char} (h : IsEscape c e) : Clean e := by
  cases h with
  | @letter l hl =>
    have hletters : ∀ p ∈ letters, isAdmitted p.2 = true ∧ p.2 ≠ '\r' := by decide
    exact clean_cons.mpr ⟨by decide, clean_cons.mpr ⟨hletters (c, l) hl, clean_nil⟩⟩
  | @code l width hl hcode =>
    have hlengths : ∀ p ∈ Quoted.codeLengths, isAdmitted p.1 = true ∧ p.1 ≠ '\r' := by decide
    exact clean_cons.mpr ⟨by decide, clean_cons.mpr ⟨hlengths (l, width + 1) hl, clean_upperHex hcode⟩⟩

theorem clean_of_escape?_eq_none {c : Char} (h : escape? c = none) :
    isAdmitted c = true ∧ c ≠ '\r' := by
  rw [escape?] at h
  split at h
  · cases h
  · dsimp only at h
    split at h
    · rename_i hdirect
      exact clean_of_ranges hdirect (by decide)
    · split at h
      · cases h
      · split at h <;> cases h

theorem clean_continued (cs : List Char) : Clean (continued cs).1 := by
  have hline : Clean ('\\' :: lineStart) := clean_cons.mpr ⟨by decide, clean_lineStart⟩
  rw [continued]
  split
  · exact clean_append.mpr ⟨hline, clean_cons.mpr ⟨by decide, clean_nil⟩⟩
  · exact hline

theorem clean_escapes (cs : List Char) (first fresh : Bool) (column : Nat) :
    Clean (escapes first fresh column cs) := by
  induction cs generalizing first fresh column with
  | nil => exact clean_cons.mpr ⟨by decide, clean_nil⟩
  | cons c cs ih =>
    rw [escapes]
    dsimp only
    split
    · rename_i e he
      have hescape := clean_escape (isEscape_of_escape? he)
      split
      · exact clean_append.mpr ⟨clean_append.mpr ⟨hescape, clean_continued cs⟩, ih _ _ _⟩
      · exact clean_append.mpr ⟨clean_append.mpr ⟨hescape, clean_nil⟩, ih _ _ _⟩
    · rename_i he
      split
      · exact clean_append.mpr ⟨clean_continued (c :: cs),
          clean_cons.mpr ⟨clean_of_escape?_eq_none he, ih _ _ _⟩⟩
      · exact clean_cons.mpr ⟨clean_of_escape?_eq_none he, ih _ _ _⟩

theorem isShown_of_not_needsEscapes {cs : List Char} (h : needsEscapes cs = false) :
    ∀ c ∈ cs, isShown c = true := by
  obtain ⟨hboth, -⟩ := Bool.or_eq_false_iff.mp h
  obtain ⟨hshown, -⟩ := Bool.or_eq_false_iff.mp hboth
  intro c hc
  have hno := List.any_eq_false.mp hshown c hc
  simpa using hno

theorem needsEscapes_of_isPlain {cs : List Char} (h : isPlain cs = true) : needsEscapes cs = false := by
  simp only [isPlain, Bool.and_eq_true, Bool.not_eq_true'] at h
  exact h.1.1.1.1.1

theorem styleOf_eq_plain_iff (cs : List Char) : styleOf cs = .plain ↔ isPlain cs = true := by
  rw [styleOf]
  constructor
  · intro h
    by_contra hplain
    rw [if_neg hplain] at h
    split at h <;> cases h
  · exact fun h => if_pos h

theorem styleOf_eq_single_iff (cs : List Char) :
    styleOf cs = .single ↔ isPlain cs = false ∧ needsEscapes cs = false := by
  rw [styleOf]
  constructor
  · intro h
    split at h
    · cases h
    · split at h
      · cases h
      · exact ⟨Bool.eq_false_iff.mpr ‹_›, Bool.eq_false_iff.mpr ‹_›⟩
  · rintro ⟨hplain, hescapes⟩
    simp [hplain, hescapes]

theorem clean_scalar (column : Nat) (text : String) : Clean (scalar column text).toList := by
  have hspace : isAdmitted ' ' = true ∧ ' ' ≠ '\r' := by decide
  have hshown : needsEscapes text.toList = false → Clean text.toList :=
    fun h c hc => clean_of_isShown (isShown_of_not_needsEscapes h c hc)
  rw [scalar]
  split
  · rename_i hstyle
    have hplain := needsEscapes_of_isPlain ((styleOf_eq_plain_iff _).mp hstyle)
    rw [String.toList_ofList]
    exact clean_cons.mpr ⟨hspace, clean_runs (hshown hplain) .none trivial _ _ _⟩
  · rename_i hstyle
    have hsingle := ((styleOf_eq_single_iff _).mp hstyle).2
    rw [String.toList_ofList]
    exact clean_cons.mpr ⟨hspace, clean_cons.mpr
      ⟨by decide, clean_runs (hshown hsingle) .none trivial _ _ _⟩⟩
  · rw [String.toList_ofList]
    exact clean_cons.mpr ⟨hspace, clean_cons.mpr ⟨by decide, clean_escapes _ _ _ _⟩⟩

/-! ## Reading back -/

def restored (cs : List Char) : List Char :=
  match styleOf cs with
  | .single => restoredFrom [] cs
  | _ => cs

theorem restored_of_isPlain {cs : List Char} (h : isPlain cs = true) : restored cs = cs := by
  rw [restored, (styleOf_eq_plain_iff cs).mpr h]

theorem restored_eq_self_iff (cs : List Char) :
    restored cs = cs ↔ ('\x85' ∈ cs → needsEscapes cs = true) := by
  cases hstyle : styleOf cs with
  | plain =>
    have hplain := (styleOf_eq_plain_iff cs).mp hstyle
    have hlines : cs.any isBreak = false := by
      simp only [isPlain, Bool.and_eq_true, Bool.not_eq_true'] at hplain
      exact hplain.1.1.1.1.2
    refine ⟨fun _ hmem => ?_, fun _ => restored_of_isPlain hplain⟩
    exact absurd rfl (List.any_eq_false.mp hlines _ hmem)
  | single =>
    have hsingle := ((styleOf_eq_single_iff cs).mp hstyle).2
    rw [restored, hstyle, hsingle, restoredFrom_eq_self_iff]
    exact ⟨fun h hmem => absurd hmem h, fun h hmem => absurd (h hmem) Bool.false_ne_true⟩
  | double =>
    have hescapes : needsEscapes cs = true := by
      by_contra hno
      rw [styleOf] at hstyle
      split at hstyle
      · cases hstyle
      · cases hstyle
    rw [restored, hstyle]
    exact ⟨fun _ _ => hescapes, fun _ => rfl⟩

end Written
end SerialAudit.Document
