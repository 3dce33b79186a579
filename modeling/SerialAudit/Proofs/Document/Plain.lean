import SerialAudit.Proofs.Document.Quoted
import SerialAudit.Document.Token.Plain

/-! What a text without marks around it is read back as: itself.

* `Plain.NextLine` : what may stand on the line after a scalar;
* `Written.Bare` : texts that need no marks after a character.

A reader goes on over the gaps of such a text, folded lines among them, and stops at the line after it
(`scan_runs_bare`). -/
namespace SerialAudit.Document
set_option autoImplicit false

/-- The line after a scalar is not indented as far as the scalar would have to be, if there is one. -/
structure Plain.NextLine (indent margin : Nat) (body : List Char) : Prop where
  begins : ∀ c ∈ body.head?, isGap c = false ∧ c ≠ '#' ∧ c ≠ '\uFEFF' ∧ margin < indent
  marker : atMarker (List.replicate margin ' ' ++ body) = false

namespace Plain

variable {indent margin : Nat} {gap : Gap} {c : Char} {cs body : List Char}

/-! ## Gaps -/

theorem scan_space : scan false indent gap (' ' :: cs) = scan false indent gap.space cs := by
  rw [scan, if_pos rfl]

theorem scan_lineBreak (hmarker : atMarker cs = false) :
    scan false indent gap ('\n' :: cs) = scan false indent (gap.lineBreak '\n') cs := by
  have hvalue : breakValue '\n' = '\n' := rfl
  have hbreak : isBreak '\n' = true := rfl
  rw [scan, if_neg (by decide), if_pos hbreak, hmarker, if_neg Bool.false_ne_true, hvalue]

theorem scan_indentation {first : Char} {more : List Char} (n column : Nat) :
    scan false indent (.breaks first more column) (List.replicate n ' ' ++ cs) =
      scan false indent (.breaks first more (column + n)) cs := by
  induction n generalizing column with
  | zero => rfl
  | succ n ih =>
    rw [List.replicate_succ, List.cons_append, scan_space, Gap.space, ih, Nat.add_right_comm,
      Nat.add_assoc]

theorem scan_blanks {held : List Char} (n : Nat) :
    scan false indent (.spaces held) (List.replicate n ' ' ++ cs) =
      scan false indent (.spaces (List.replicate n ' ' ++ held)) cs := by
  induction n generalizing held with
  | zero => rfl
  | succ n ih =>
    rw [List.replicate_succ, List.cons_append, scan_space, Gap.space, ih, ← List.replicate_succ,
      List.replicate_succ', List.append_assoc]
    rfl

theorem scan_spaces (n : Nat) : scan false indent .none (List.replicate (n + 1) ' ' ++ cs) =
    scan false indent (.spaces (List.replicate (n + 1) ' ')) cs := by
  rw [List.replicate_succ, List.cons_append, scan_space, Gap.space, scan_blanks,
    ← List.replicate_succ, List.replicate_succ']

/-! ## Characters -/

theorem ne_space_of_isGap (h : isGap c = false) : c ≠ ' ' := by
  rintro rfl
  exact absurd h (by decide)

theorem scan_char (hgap : isGap c = false) (hcolon : c = ':' → atGap cs = false)
    (hgoes : endsAfter false indent c gap = false) :
    scan false indent gap (c :: cs) =
      (gap.text ++ c :: (scan false indent .none cs).1, (scan false indent .none cs).2) := by
  have hbreak : isBreak c = false := (Bool.or_eq_false_iff.mp hgap).2
  have hstops : stops false c cs = false := by
    have hends : (c = ':' && endsOr (fun d => isGap d || (false && flowIndicators.contains d)) cs) =
        false := by
      simp only [Bool.false_and, Bool.or_false, Bool.and_eq_false_iff, decide_eq_false_iff_not]
      exact or_iff_not_imp_left.mpr fun h => hcolon (not_not.mp h)
    rw [stops, hgap, hends]
    rfl
  rw [scan, if_neg (ne_space_of_isGap hgap), hbreak, if_neg Bool.false_ne_true, hstops, hgoes]
  rfl

/-- The end of a scalar at the end of its line. -/
theorem scan_line_end (h : NextLine indent margin body) :
    scan false indent .none ('\n' :: (List.replicate margin ' ' ++ body)) = ([], true, body) := by
  rw [scan_lineBreak h.marker, Gap.lineBreak, scan_indentation, Nat.zero_add]
  · cases body with
    | nil => rfl
    | cons c cs =>
      obtain ⟨hgap, hcomment, -, hmargin⟩ := h.begins c rfl
      have hbreak : isBreak c = false := (Bool.or_eq_false_iff.mp hgap).2
      have hends : endsAfter false indent c (.breaks '\n' [] margin) = true := by
        simp [endsAfter, hmargin]
      rw [scan, if_neg (ne_space_of_isGap hgap), hbreak, if_neg Bool.false_ne_true, hends,
        Bool.or_true, if_pos rfl]
      rfl
  · exact nofun

end Plain

namespace Written

/-! ## Texts without marks -/

structure Bare (before : Char) (cs : List Char) : Prop where
  shown : ∀ c ∈ cs, isShown c = true
  lines : ∀ c ∈ cs, isBreak c = false
  last : (before :: cs).getLast? ≠ some ' '
  separate : hasSeparator before cs = false

/-- What is held after a character of a text without line breaks. -/
def Held.Follows : Held → Char → Prop
  | none, _ => True
  | spaces count _, before => 0 < count ∧ before = ' '
  | breaks _, _ => False

theorem Bare.tail {before c : Char} {cs : List Char} (h : Bare before (c :: cs)) : Bare c cs where
  shown d hd := h.shown d (List.mem_cons_of_mem c hd)
  lines d hd := h.lines d (List.mem_cons_of_mem c hd)
  last hlast := h.last (by rwa [List.getLast?_cons_cons])
  separate := (Bool.or_eq_false_iff.mp h.separate).2

open Plain in
/-- What is held is a gap for the reader, which the text goes on after. -/
theorem exists_gap_of_release {held : Held} {before : Char} (h : held.Follows before) {indent : Nat}
    (hindent : indent ≤ indentation) (column : Nat) : ∃ gap : Gap, gap.text = held.readBack ∧
      (∀ c, isGap before = false ∨ c ≠ '#' → endsAfter false indent c gap = false) ∧
      ∀ cs, scan false indent .none ((held.release column false).1 ++ cs) = scan false indent gap cs := by
  cases held with
  | none => exact ⟨.none, rfl, fun c hc => rfl, fun cs => rfl⟩
  | spaces count inside =>
    obtain ⟨hcount, rfl⟩ := h
    obtain ⟨n, rfl⟩ : ∃ n, count = n + 1 := ⟨count - 1, (Nat.succ_pred_eq_of_pos hcount).symm⟩
    have hcomment : ∀ c, isGap ' ' = false ∨ c ≠ '#' → c ≠ '#' :=
      fun c hc => hc.resolve_left (by decide)
    rw [Held.release]
    split
    · rename_i hfold
      have hone : n + 1 = 1 := by
        simp only [Bool.and_eq_true, decide_eq_true_eq] at hfold
        exact hfold.1.1.1
      refine ⟨.breaks '\n' [] (0 + indentation), ?_, fun c hc => ?_, fun cs => ?_⟩
      · rw [hone]
        rfl
      · simp [endsAfter, hcomment c hc, hindent]
      · change scan false indent .none ('\n' :: (List.replicate indentation ' ' ++ cs)) = _
        have hmarker : atMarker (List.replicate indentation ' ' ++ cs) = false :=
          atMarker_cons (by decide) (by decide) _
        rw [scan_lineBreak hmarker]
        exact scan_indentation indentation 0
    · refine ⟨.spaces (List.replicate (n + 1) ' '), rfl, fun c hc => ?_, fun cs => scan_spaces n⟩
      simp [endsAfter, hcomment c hc]
  | breaks bs => exact h.elim

/-- A text after a character that is no gap begins with one where it is written. -/
theorem atGap_runs {cs rest : List Char} (hshown : ∀ c ∈ cs, isShown c = true)
    (hlines : ∀ c ∈ cs, isBreak c = false) (h : atGap cs = false) (column : Nat) :
    atGap (runs false false column .none cs ++ rest) = false := by
  cases cs with
  | nil => exact absurd h (by decide)
  | cons c cs =>
    rw [runs_char (Plain.ne_space_of_isGap h) (hlines c List.mem_cons_self)]
    exact h

open Plain in
theorem scan_runs_bare (held : Held) {before : Char} {cs body : List Char} {indent margin : Nat}
    (h : Bare before cs) (hheld : held.Follows before) (hindent : indent ≤ indentation)
    (hline : NextLine indent margin body) (first : Bool) (column : Nat) :
    scan false indent .none
        (runs false first column held cs ++ '\n' :: (List.replicate margin ' ' ++ body)) =
      (held.readBack ++ cs, true, body) := by
  induction cs generalizing held before first column with
  | nil =>
    cases held with
    | none => exact scan_line_end hline
    | spaces count inside => exact absurd (congrArg some hheld.2) h.last
    | breaks bs => exact hheld.elim
  | cons c cs ih =>
    by_cases hspace : c = ' '
    · subst hspace
      cases held with
      | none =>
        rw [runs_space, ih (.spaces 1 !first) h.tail ⟨Nat.one_pos, rfl⟩]
        rfl
      | spaces count inside =>
        rw [runs_more_spaces, ih (.spaces (count + 1) inside) h.tail
          ⟨Nat.succ_pos count, rfl⟩, Held.readBack, Held.readBack, List.replicate_succ',
          List.append_assoc]
        rfl
      | breaks bs => exact hheld.elim
    · obtain ⟨gap, htext, hgoes, hscan⟩ := exists_gap_of_release hheld hindent column
      have hbreak := h.lines c List.mem_cons_self
      have hgap := isGap_eq_false (h.shown c List.mem_cons_self) hspace hbreak
      obtain ⟨hhead, -⟩ := Bool.or_eq_false_iff.mp h.separate
      obtain ⟨hcolon, hcomment⟩ := Bool.or_eq_false_iff.mp hhead
      have hends : endsAfter false indent c gap = false := by
        rw [Bool.and_eq_false_iff, decide_eq_false_iff_not] at hcomment
        exact hgoes c hcomment.symm
      rw [runs_char hspace hbreak, List.append_assoc, hscan]
      simp only [Bool.false_and, Bool.false_eq_true, if_false, List.cons_append]
      rw [scan_char hgap ?_ hends, ih .none h.tail trivial, htext]
      · rfl
      · rintro rfl
        exact atGap_runs (fun d hd => h.shown d (List.mem_cons_of_mem _ hd))
          (fun d hd => h.lines d (List.mem_cons_of_mem _ hd)) (by simpa using hcolon) _

end Written
end SerialAudit.Document
