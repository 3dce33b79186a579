import Mathlib.Data.List.Basic
import SerialAudit.Document.Token.Quoted
import SerialAudit.Document.Written

/-! What a text between apostrophes is read back as.

* `Quoted.Mode.IsText` : the places in a quoted scalar where its text goes on;
* `Written.readBreaks` : line breaks that stand together, as they are read back;
* `Written.IsGapFor` : spaces and line breaks that a reader takes for a text;
* `Written.restoredFrom` : a text between apostrophes, as it is read back;
* `Written.Quotable` : texts that hold nothing that only an escape can show.

What is held back while a text is written, spaces or line breaks, is a gap for the reader, and stands for
itself there (`isGapFor_release`) with one exception: the next-line control counts as an ordinary
line break, so that it comes back as another one, or as a space where it stands alone
(`restoredFrom_eq_self_iff`). -/
namespace SerialAudit.Document
set_option autoImplicit false

/-! ## Gaps -/

theorem not_isBlank_of_isBreak {c : Char} (h : isBreak c = true) : isBlank c = false := by
  simp only [isBreak, Bool.or_eq_true, decide_eq_true_eq] at h
  obtain ((rfl | rfl) | rfl) | rfl := h <;> decide

/-- A document ends only at dashes or points. -/
theorem atMarker_cons {c : Char} (hdash : c ≠ '-') (hpoint : c ≠ '.') (cs : List Char) :
    atMarker (c :: cs) = false := by
  unfold atMarker
  split
  · exact absurd (List.cons.inj ‹_›).1 hdash
  · exact absurd (List.cons.inj ‹_›).1 hpoint
  · rfl

/-- Nor does it end within line breaks with a space after them. -/
theorem atMarker_breaks {bs : List Char} (hbs : ∀ b ∈ bs, isBreak b = true) (cs : List Char) :
    atMarker (bs ++ ' ' :: cs) = false := by
  cases bs with
  | nil => exact atMarker_cons (by decide) (by decide) cs
  | cons b bs =>
    have hb := hbs b List.mem_cons_self
    exact atMarker_cons (by rintro rfl; exact absurd hb (by decide))
      (by rintro rfl; exact absurd hb (by decide)) _

namespace Quoted

def Mode.IsText : Mode → Prop
  | word | blanks _ | breaks _ _ => True
  | _ => False

/-- The place after one more blank. -/
def Mode.blank (c : Char) : Mode → Mode
  | blanks held => .blanks (c :: held)
  | breaks first more => .breaks first more
  | _ => .blanks [c]

/-- The place after one more line break. -/
def Mode.lineBreak (c : Char) : Mode → Mode
  | breaks first more => .breaks first (breakValue c :: more)
  | _ => .breaks (some (breakValue c)) []

variable {double : Bool} {mode next : Mode} {c : Char} {cs text : List Char}
  {result : List Char × List Char}

theorem scan_of_go (hstep : step double mode c cs = .go text next)
    (h : scan double next cs = .ok result) :
    scan double mode (c :: cs) = .ok (text ++ result.1, result.2) := by
  rw [scan, hstep]
  simp only [h, Except.map]

/-- A character that is passed over without a text. -/
theorem scan_of_pass (hstep : step double mode c cs = .go [] next)
    (h : scan double next cs = .ok result) : scan double mode (c :: cs) = .ok result :=
  scan_of_go hstep h

theorem step_of_isText (h : mode.IsText) : step double mode c cs = inText double mode c cs := by
  cases mode with
  | word => rfl
  | blanks => rfl
  | breaks => rfl
  | escape => exact h.elim
  | code => exact h.elim
  | mark => exact h.elim

theorem step_blank (h : mode.IsText) (hc : isBlank c = true) :
    step double mode c cs = .go [] (mode.blank c) := by
  rw [step_of_isText h]
  unfold inText
  rw [if_pos hc]
  cases mode <;> rfl

theorem step_lineBreak (h : mode.IsText) (hc : isBreak c = true) (hmarker : atMarker cs = false) :
    step double mode c cs = .go [] (mode.lineBreak c) := by
  have hblank : ¬ isBlank c = true := by
    rw [not_isBlank_of_isBreak hc]
    exact Bool.false_ne_true
  rw [step_of_isText h]
  unfold inText
  rw [if_neg hblank, if_pos hc]
  cases mode <;> simp only [ofBreak, hmarker, Mode.lineBreak] <;> rfl

theorem step_char_single (h : mode.IsText) (hgap : isGap c = false) (hmark : c ≠ '\'') :
    step false mode c cs = .go (mode.text ++ [c]) .word := by
  obtain ⟨hblank, hbreak⟩ := Bool.or_eq_false_iff.mp hgap
  rw [step_of_isText h]
  unfold inText
  simp [hblank, hbreak, hmark]

theorem step_char_double (h : mode.IsText) (hgap : isGap c = false) (hmark : c ≠ '"')
    (hslash : c ≠ '\\') : step true mode c cs = .go (mode.text ++ [c]) .word := by
  obtain ⟨hblank, hbreak⟩ := Bool.or_eq_false_iff.mp hgap
  rw [step_of_isText h]
  unfold inText
  simp [hblank, hbreak, hmark, hslash]

/-- Two apostrophes stand for one. -/
theorem scan_apostrophes (h : mode.IsText) (hrest : scan false .word cs = .ok result) :
    scan false mode ('\'' :: '\'' :: cs) = .ok (mode.text ++ '\'' :: result.1, result.2) := by
  have hopen : step false mode '\'' ('\'' :: cs) = .go mode.text .mark := by
    rw [step_of_isText h]
    rfl
  exact scan_of_go hopen (scan_of_go rfl hrest)

/-- An apostrophe at the end of a line ends the text. -/
theorem scan_apostrophe (h : mode.IsText) (rest : List Char) :
    scan false mode ('\'' :: '\n' :: rest) = .ok (mode.text, '\n' :: rest) := by
  have hstep : step false mode '\'' ('\n' :: rest) = .go mode.text .mark := by
    rw [step_of_isText h]
    rfl
  have hstop : scan false .mark ('\n' :: rest) = .ok ([], '\n' :: rest) := rfl
  rw [scan_of_go hstep hstop, List.append_nil]

/-! ## Blanks and line breaks -/

theorem scan_indentation {first : Option Char} {more : List Char} (n : Nat)
    (h : scan double (.breaks first more) cs = .ok result) :
    scan double (.breaks first more) (List.replicate n ' ' ++ cs) = .ok result := by
  induction n with
  | zero => exact h
  | succ n ih =>
    rw [List.replicate_succ]
    exact scan_of_pass (step_blank trivial rfl) ih

theorem scan_blanks {held : List Char} (n : Nat)
    (h : scan double (.blanks (List.replicate n ' ' ++ held)) cs = .ok result) :
    scan double (.blanks held) (List.replicate n ' ' ++ cs) = .ok result := by
  induction n generalizing held with
  | zero => exact h
  | succ n ih =>
    rw [List.replicate_succ]
    refine scan_of_pass (step_blank trivial rfl) (ih ?_)
    rwa [List.replicate_succ', List.append_assoc] at h

theorem scan_spaces (n : Nat) (h : scan double (.blanks (List.replicate (n + 1) ' ')) cs = .ok result) :
    scan double .word (List.replicate (n + 1) ' ' ++ cs) = .ok result := by
  rw [List.replicate_succ]
  refine scan_of_pass (step_blank trivial rfl) (scan_blanks n ?_)
  rwa [List.replicate_succ'] at h

/-- Line breaks with a space after them. -/
theorem scan_breaks {first : Option Char} {more bs : List Char} (hbs : ∀ b ∈ bs, isBreak b = true)
    (h : scan double (.breaks first ((bs.map breakValue).reverse ++ more)) (' ' :: cs) = .ok result) :
    scan double (.breaks first more) (bs ++ ' ' :: cs) = .ok result := by
  induction bs generalizing more with
  | nil => exact h
  | cons b bs ih =>
    have hmarker : atMarker (bs ++ ' ' :: cs) = false :=
      atMarker_breaks (fun d hd => hbs d (List.mem_cons_of_mem b hd)) cs
    refine scan_of_pass (step_lineBreak trivial (hbs b List.mem_cons_self) hmarker)
      (ih (fun d hd => hbs d (List.mem_cons_of_mem b hd)) ?_)
    simpa using h

end Quoted

namespace Written

/-! ## Line breaks between apostrophes -/

def readBreaks : List Char → List Char
  | [] => []
  | b :: bs =>
    if b = '\n' then b :: bs.map breakValue else folded (breakValue b) (bs.map breakValue).reverse

/-- A text as it is read back; `bs` are the line breaks right before it, in reverse. -/
def restoredFrom : List Char → List Char → List Char
  | bs, [] => readBreaks bs.reverse
  | bs, c :: cs =>
    if isBreak c then restoredFrom (c :: bs) cs else readBreaks bs.reverse ++ c :: restoredFrom [] cs

/-- What is held, as it is read back. -/
def Held.readBack : Held → List Char
  | none => []
  | spaces count _ => List.replicate count ' '
  | breaks bs => readBreaks bs.reverse

/-- What is held, and a text after it. -/
def Held.restored (cs : List Char) : Held → List Char
  | breaks bs => restoredFrom bs cs
  | held => held.readBack ++ restoredFrom [] cs

theorem Held.restored_nil (held : Held) : held.restored [] = held.readBack := by
  cases held <;> simp [restored, readBack, restoredFrom, readBreaks]

theorem Held.restored_char {c : Char} (hbreak : isBreak c = false) (held : Held) (cs : List Char) :
    held.restored (c :: cs) = held.readBack ++ c :: restoredFrom [] cs := by
  cases held <;> simp [restored, readBack, restoredFrom, readBreaks, hbreak]

/-- What is held is not empty. -/
def Held.IsProper : Held → Prop
  | none => True
  | spaces count _ => 0 < count
  | breaks bs => bs ≠ [] ∧ ∀ b ∈ bs, isBreak b = true

section

open Quoted

variable (double : Bool)

/-- What is written is a gap for the reader that stands for a text, wherever the scalar goes on. -/
def IsGapFor (w text : List Char) : Prop := ∃ mode : Mode, mode.IsText ∧ mode.text = text ∧
  ∀ cs result, scan double mode cs = .ok result → scan double .word (w ++ cs) = .ok result

theorem isGapFor_nil : IsGapFor double [] [] := ⟨.word, trivial, rfl, fun _ _ h => h⟩

theorem isGapFor_lineStart : IsGapFor double lineStart [' '] :=
  ⟨.breaks (some '\n') [], trivial, rfl, fun _ _ h => scan_of_pass
    (step_lineBreak trivial rfl (atMarker_cons (by decide) (by decide) _))
    (scan_indentation indentation h)⟩

theorem isGapFor_spaces (n : Nat) :
    IsGapFor double (List.replicate (n + 1) ' ') (List.replicate (n + 1) ' ') :=
  ⟨.blanks (List.replicate (n + 1) ' '), trivial, List.reverse_replicate, fun _ _ h => scan_spaces n h⟩

/-- An ordinary line break is written twice, and the first one of both stands for the break. -/
theorem isGapFor_lineBreaks {ds : List Char} (h : ∀ d ∈ ds, isBreak d = true) :
    IsGapFor double ('\n' :: '\n' :: ds ++ List.replicate indentation ' ') (readBreaks ('\n' :: ds)) := by
  have hall : ∀ d ∈ '\n' :: ds, isBreak d = true := List.forall_mem_cons.mpr ⟨rfl, h⟩
  refine ⟨.breaks (some '\n') ((('\n' :: ds).map breakValue).reverse ++ []), trivial, ?_,
    fun cs result hr => ?_⟩
  · have hvalue : breakValue '\n' = '\n' := rfl
    simp [Mode.text, folded, hvalue, readBreaks]
  · rw [List.append_assoc]
    refine scan_of_pass (step_lineBreak trivial rfl (atMarker_cons (by decide) (by decide) _)) ?_
    exact scan_breaks hall (scan_indentation indentation hr)

theorem isGapFor_otherBreaks {b : Char} {ds : List Char} (h : ∀ d ∈ b :: ds, isBreak d = true)
    (hb : b ≠ '\n') :
    IsGapFor double (b :: ds ++ List.replicate indentation ' ') (readBreaks (b :: ds)) := by
  obtain ⟨hbreak, hds⟩ := List.forall_mem_cons.mp h
  refine ⟨.breaks (some (breakValue b)) ((ds.map breakValue).reverse ++ []), trivial, ?_,
    fun cs result hr => ?_⟩
  · rw [readBreaks, if_neg hb, List.append_nil]
    rfl
  · rw [List.append_assoc]
    refine scan_of_pass (step_lineBreak trivial hbreak (atMarker_breaks hds _)) ?_
    exact scan_breaks hds (scan_indentation indentation hr)

/-- What is held is a gap for the reader, and stands for what it is read back as. -/
theorem isGapFor_release {held : Held} (h : held.IsProper) (column : Nat) (atEnd : Bool) :
    IsGapFor double (held.release column atEnd).1 held.readBack := by
  cases held with
  | none => exact isGapFor_nil double
  | spaces count inside =>
    obtain ⟨n, rfl⟩ : ∃ n, count = n + 1 := ⟨count - 1, (Nat.succ_pred_eq_of_pos h).symm⟩
    rw [Held.release, Held.readBack]
    split
    · rename_i hfold
      have hone : n + 1 = 1 := by
        simp only [Bool.and_eq_true, decide_eq_true_eq] at hfold
        exact hfold.1.1.1
      rw [hone]
      exact isGapFor_lineStart double
    · exact isGapFor_spaces double n
  | breaks bs =>
    obtain ⟨hne, hbs⟩ := h
    obtain ⟨b, ds, hrev⟩ := List.exists_cons_of_ne_nil (mt List.reverse_eq_nil_iff.mp hne)
    have hall : ∀ d ∈ b :: ds, isBreak d = true := by
      intro d hd
      rw [← hrev] at hd
      exact hbs d (List.mem_reverse.mp hd)
    have hlast : bs.getLast? = some b := by
      rw [← List.head?_reverse, hrev]
      rfl
    rw [Held.release, hlast, hrev, Held.readBack, hrev]
    by_cases hb : b = '\n'
    · subst hb
      rw [if_pos rfl]
      exact isGapFor_lineBreaks double (List.forall_mem_cons.mp hall).2
    · rw [if_neg (mt Option.some.inj hb)]
      exact isGapFor_otherBreaks double hall hb

end

/-! ## Runs of characters -/

section

variable {quote first : Bool} {column : Nat} {c : Char} {cs : List Char}

theorem runs_space : runs quote first column .none (' ' :: cs) =
    runs quote false column (.spaces 1 !first) cs := by
  rw [runs.eq_def]
  rfl

theorem runs_more_spaces {count : Nat} {inside : Bool} :
    runs quote first column (.spaces count inside) (' ' :: cs) =
      runs quote false column (.spaces (count + 1) inside) cs := by
  rw [runs.eq_def]
  rfl

theorem runs_break (hspace : c ≠ ' ') (hbreak : isBreak c = true) :
    runs quote first column .none (c :: cs) = runs quote false column (.breaks [c]) cs := by
  rw [runs.eq_def]
  simp only [hspace, if_false, hbreak, if_true]
  rfl

theorem runs_more_breaks (hspace : c ≠ ' ') (hbreak : isBreak c = true) {bs : List Char} :
    runs quote first column (.breaks bs) (c :: cs) = runs quote false column (.breaks (c :: bs)) cs := by
  rw [runs.eq_def]
  simp only [hspace, if_false, hbreak, if_true]

theorem runs_char (hspace : c ≠ ' ') (hbreak : isBreak c = false) (held : Held) :
    runs quote first column held (c :: cs) =
      (held.release column false).1 ++
        if quote && c = '\'' then
          '\'' :: '\'' :: runs quote false ((held.release column false).2 + 2) .none cs
        else c :: runs quote false ((held.release column false).2 + 1) .none cs := by
  rw [runs.eq_def]
  simp only [hspace, if_false, hbreak, Bool.false_eq_true]
  split <;> rfl

end

/-! ## Texts between apostrophes -/

/-- A text that can be written without escapes, after what is held. -/
structure Quotable (held : Held) (cs : List Char) : Prop where
  proper : held.IsProper
  shown : ∀ c ∈ cs, isShown c = true
  before : adjacent isBreak (· = ' ') cs = false
  after : adjacent (· = ' ') isBreak cs = false
  spaces : ∀ count inside, held = .spaces count inside → ∀ c ∈ cs.head?, isBreak c = false
  breaks : ∀ bs, held = .breaks bs → cs.head? ≠ some ' '

theorem adjacent_cons {p q : Char → Bool} {c : Char} {cs : List Char}
    (h : adjacent p q (c :: cs) = false) :
    adjacent p q cs = false ∧ (p c = true → ∀ d ∈ cs.head?, q d = false) := by
  cases cs with
  | nil => exact ⟨rfl, fun _ d hd => absurd hd (Option.not_mem_none d)⟩
  | cons d ds =>
    obtain ⟨hhead, htail⟩ := Bool.or_eq_false_iff.mp h
    refine ⟨htail, fun hc e he => ?_⟩
    obtain rfl : d = e := Option.some.inj he
    simpa [hc] using hhead

theorem isGap_eq_false {c : Char} (hshown : isShown c = true) (hspace : c ≠ ' ')
    (hbreak : isBreak c = false) : isGap c = false := by
  have htab : c ≠ '\t' := by
    rintro rfl
    exact absurd hshown (by decide)
  simp [isGap, isBlank, hspace, htab, hbreak]

namespace Quotable

variable {held : Held} {c : Char} {cs : List Char}

theorem tail (h : Quotable held (c :: cs)) (next : Held) (hproper : next.IsProper)
    (hspaces : ∀ count inside, next = .spaces count inside → c = ' ')
    (hbreaks : ∀ bs, next = .breaks bs → isBreak c = true) : Quotable next cs where
  proper := hproper
  shown d hd := h.shown d (List.mem_cons_of_mem c hd)
  before := (adjacent_cons h.before).1
  after := (adjacent_cons h.after).1
  spaces count inside hnext := (adjacent_cons h.after).2 (decide_eq_true (hspaces count inside hnext))
  breaks bs hnext hhead := by
    have hno := (adjacent_cons h.before).2 (hbreaks bs hnext) ' ' hhead
    exact absurd hno (by decide)

theorem tail_none (h : Quotable held (c :: cs)) : Quotable .none cs :=
  h.tail .none trivial (fun _ _ heq => Held.noConfusion heq) fun _ heq => Held.noConfusion heq

theorem tail_spaces (h : Quotable held (' ' :: cs)) {count : Nat} (hcount : 0 < count) (inside : Bool) :
    Quotable (.spaces count inside) cs :=
  h.tail (.spaces count inside) hcount (fun _ _ _ => rfl) fun _ heq => Held.noConfusion heq

theorem tail_breaks (h : Quotable held (c :: cs)) (hc : isBreak c = true) {bs : List Char}
    (hbs : ∀ b ∈ bs, isBreak b = true) : Quotable (.breaks (c :: bs)) cs :=
  h.tail (.breaks (c :: bs)) ⟨List.cons_ne_nil c bs, List.forall_mem_cons.mpr ⟨hc, hbs⟩⟩
    (fun _ _ heq => Held.noConfusion heq) fun _ _ => hc

end Quotable

open Quoted in
theorem scan_runs {held : Held} {cs : List Char} (h : Quotable held cs) (first : Bool) (column : Nat)
    (rest : List Char) :
    scan false .word (runs true first column held cs ++ '\n' :: rest) =
      .ok (held.restored cs, '\n' :: rest) := by
  -- the reader stands at the end of a word as long as something is held: nothing of it is written yet
  induction cs generalizing held first column with
  | nil =>
    obtain ⟨mode, hmode, htext, hscan⟩ := isGapFor_release false h.proper column true
    rw [runs, if_pos rfl, List.append_assoc, held.restored_nil, ← htext]
    exact hscan _ _ (scan_apostrophe hmode rest)
  | cons c cs ih =>
    by_cases hspace : c = ' '
    · subst hspace
      cases held with
      | none =>
        rw [runs_space, ih (h.tail_spaces Nat.one_pos !first)]
        rfl
      | spaces count inside =>
        rw [runs_more_spaces, ih (h.tail_spaces (Nat.succ_pos count) inside)]
        simp [Held.restored, Held.readBack, restoredFrom, readBreaks, List.replicate_succ', isBreak]
      | breaks bs => exact absurd rfl (h.breaks bs rfl)
    -- a line break joins those that are held, anything else lets them go
    · cases hbreak : isBreak c with
      | true =>
        cases held with
        | none =>
          have hnone : ∀ b ∈ ([] : List Char), isBreak b = true :=
            fun _ hmem => absurd hmem List.not_mem_nil
          rw [runs_break hspace hbreak, ih (h.tail_breaks hbreak hnone)]
          simp [Held.restored, Held.readBack, restoredFrom, hbreak]
        | spaces count inside =>
          exact absurd (h.spaces count inside rfl c rfl) (by simp [hbreak])
        | breaks bs =>
          rw [runs_more_breaks hspace hbreak, ih (h.tail_breaks hbreak h.proper.2)]
          simp [Held.restored, restoredFrom, hbreak]
      | false =>
        have hrest := ih h.tail_none
        obtain ⟨mode, hmode, htext, hscan⟩ := isGapFor_release false h.proper column false
        have hgap := isGap_eq_false (h.shown c List.mem_cons_self) hspace hbreak
        rw [runs_char hspace hbreak, held.restored_char hbreak, ← htext, List.append_assoc]
        refine hscan _ _ ?_
        by_cases hquote : c = '\''
        · subst hquote
          exact scan_apostrophes hmode (hrest false _)
        · have hplain : (true && decide (c = '\'')) = false := by simp [hquote]
          rw [hplain, if_neg Bool.false_ne_true, List.cons_append,
            scan_of_go (step_char_single hmode hgap hquote) (hrest false _)]
          simp [Held.restored, Held.readBack]

/-! ## What comes back changed -/

theorem breakValue_ne (c : Char) : breakValue c ≠ '\x85' := by
  unfold breakValue
  split
  · decide
  · assumption

theorem map_breakValue {bs : List Char} (h : '\x85' ∉ bs) : bs.map breakValue = bs := by
  refine (List.map_congr_left fun b hb => ?_).trans (List.map_id bs)
  have hne : b ≠ '\x85' := fun heq => h (heq ▸ hb)
  exact if_neg hne

theorem readBreaks_eq_self {bs : List Char} (h : '\x85' ∉ bs) : readBreaks bs = bs := by
  cases bs with
  | nil => rfl
  | cons b bs =>
    obtain ⟨hb, hbs⟩ := not_or.mp (mt List.mem_cons.mpr h)
    rw [readBreaks, map_breakValue hbs]
    by_cases hline : b = '\n'
    · rw [if_pos hline]
    · have hvalue : breakValue b = b := if_neg (Ne.symm hb)
      rw [if_neg hline, hvalue, folded, if_pos hline, List.reverse_reverse]
      rfl

theorem not_mem_readBreaks (bs : List Char) : '\x85' ∉ readBreaks bs := by
  have hmap : ∀ ds : List Char, '\x85' ∉ ds.map breakValue := by
    intro ds hmem
    obtain ⟨d, -, hd⟩ := List.mem_map.mp hmem
    exact breakValue_ne d hd
  cases bs with
  | nil => exact List.not_mem_nil
  | cons b bs =>
    rw [readBreaks]
    split
    · rename_i hline
      rw [hline, List.mem_cons, not_or]
      exact ⟨by decide, hmap bs⟩
    · rw [folded, List.reverse_reverse, List.mem_append, not_or]
      refine ⟨?_, hmap bs⟩
      split
      · exact fun hmem => breakValue_ne b (List.mem_singleton.mp hmem).symm
      · split <;> decide

theorem not_mem_restoredFrom (bs cs : List Char) : '\x85' ∉ restoredFrom bs cs := by
  induction cs generalizing bs with
  | nil => exact not_mem_readBreaks bs.reverse
  | cons c cs ih =>
    rw [restoredFrom]
    split
    · exact ih (c :: bs)
    · rename_i hbreak
      rw [List.mem_append, List.mem_cons, not_or, not_or]
      refine ⟨not_mem_readBreaks bs.reverse, ?_, ih []⟩
      rintro rfl
      exact hbreak rfl

theorem restoredFrom_eq_append {bs cs : List Char} (hbs : '\x85' ∉ bs) (hcs : '\x85' ∉ cs) :
    restoredFrom bs cs = bs.reverse ++ cs := by
  induction cs generalizing bs with
  | nil => rw [restoredFrom, readBreaks_eq_self (mt List.mem_reverse.mp hbs), List.append_nil]
  | cons c cs ih =>
    obtain ⟨hc, htail⟩ := not_or.mp (mt List.mem_cons.mpr hcs)
    rw [restoredFrom]
    split
    · have hmore : '\x85' ∉ c :: bs := by
        rw [List.mem_cons, not_or]
        exact ⟨hc, hbs⟩
      rw [ih hmore htail, List.reverse_cons, List.append_assoc, List.singleton_append]
    · rw [readBreaks_eq_self (mt List.mem_reverse.mp hbs), ih List.not_mem_nil htail]
      rfl

theorem restoredFrom_eq_self_iff (cs : List Char) : restoredFrom [] cs = cs ↔ '\x85' ∉ cs := by
  constructor
  · intro h
    rw [← h]
    exact not_mem_restoredFrom [] cs
  · exact fun h => restoredFrom_eq_append List.not_mem_nil h

end Written
end SerialAudit.Document
