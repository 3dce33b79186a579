import SerialAudit.Proofs.Document.Restored
import SerialAudit.Proofs.Document.Scanning

/-! The tokens of written scalars.

* `Scanner.ReadsAs` : what is written after a colon, and the token that it makes;
* `Written.token` : the token of a written text.

Whatever a text is, it is written so that it makes one token with the text as it is read back
(`readsAs_scalar`). -/
namespace SerialAudit.Document
set_option autoImplicit false

namespace Scanner

variable {ts tokens : List Token} {p : Cursor} {columns : List Nat} {allowed : Bool} {c : Char}
  {cs body : List Char} {margin : Nat}

/-! ## Values -/

/-- The column from which on the lines of a value in a mapping at the column 2 must stand. -/
def valueIndent : Nat := 3

/-- What is written after the colon of a key in a mapping at the column 2 makes a token. -/
def ReadsAs (w : List Char) (t : Token) : Prop :=
  ∀ (p : Cursor) (columns : List Nat) (tokens ts : List Token) (margin : Nat) (body : List Char),
    p.rest = w ++ '\n' :: (List.replicate margin ' ' ++ body) → columns.head? = some 2 →
    (∀ n ∈ columns, n ≤ p.column) → Plain.NextLine valueIndent margin body →
    (∀ q allowed, Begins q allowed margin body →
      (block q columns none allowed (t :: tokens)).Yields ts) →
    (block p columns none false tokens).Yields ts

theorem skipGap_spaces (n : Nat) (cs : List Char) :
    skipGap false (List.replicate n ' ' ++ cs) = skipGap false cs := by
  induction n with
  | zero => rfl
  | succ n ih =>
    rw [List.replicate_succ, List.cons_append, skipGap, if_neg (by decide), if_neg (by decide),
      if_pos rfl, ih]

theorem skipGap_of_begins (hgap : isGap c = false) (hcomment : c ≠ '#') :
    skipGap false (c :: cs) = (false, c :: cs) := by
  have hbreak : ¬ isBreak c = true := by
    rw [(Bool.or_eq_false_iff.mp hgap).2]
    exact Bool.false_ne_true
  rw [skipGap, if_neg hbreak, if_neg Bool.false_ne_true, if_neg (Plain.ne_space_of_isGap hgap),
    if_neg hcomment]

theorem skipGap_of_nextLine (h : Plain.NextLine valueIndent margin body) :
    skipGap false body = (false, body) := by
  cases body with
  | nil => rfl
  | cons c cs =>
    obtain ⟨hgap, hcomment, -⟩ := h.begins c rfl
    exact skipGap_of_begins hgap hcomment

/-- Where a plain scalar ends, the next line has begun. -/
theorem begins_of_nextLine (cs : List Char) (h : Plain.NextLine valueIndent margin body)
    (hrest : p.rest = cs ++ '\n' :: (List.replicate margin ' ' ++ body)) :
    Begins (p.moveTo body) true margin body := by
  have hall : p.rest = (cs ++ '\n' :: List.replicate margin ' ') ++ body := by
    rw [hrest, List.append_assoc, List.cons_append]
  have hbody : (p.moveTo body).rest = body := Cursor.rest_moveTo p _ body hall
  have hself : (p.moveTo body).moveTo body = p.moveTo body := Cursor.moveTo_self hbody
  refine ⟨?_, ⟨false, ?_, rfl⟩, ?_, ?_, ?_⟩
  · rw [hbody]
    intro hmark
    exact (h.begins _ hmark).2.2.1 rfl
  · rw [hbody, skipGap_of_nextLine h]
  · rw [hself, hbody]
  · rw [hself, Cursor.column_moveTo cs hrest]
  · exact Nat.le_of_eq (congrArg List.length hbody.symm)

/-- Where a quoted scalar ends, the line has not ended yet. -/
theorem begins_of_lineEnd (h : Plain.NextLine valueIndent margin body)
    (hrest : p.rest = '\n' :: (List.replicate margin ' ' ++ body)) :
    Begins p allowed margin body := by
  have hall : p.rest = ('\n' :: List.replicate margin ' ') ++ body := hrest
  refine ⟨?_, ⟨true, ?_, Bool.or_true allowed⟩, Cursor.rest_moveTo p _ body hall,
    Cursor.column_moveTo [] hrest, ?_⟩
  · rw [hrest]
    exact fun hmark => absurd (Option.some.inj hmark) (by decide)
  · rw [hrest, skipGap, if_pos (by decide), skipGap_spaces, skipGap_of_nextLine h]
  · rw [hall, List.length_append]
    exact Nat.le_add_left _ _

/-- A token after a colon and a space. -/
theorem yields_token {q : Cursor} {t : Token} (hrest : p.rest = ' ' :: c :: cs) (hgap : isGap c = false)
    (hcomment : c ≠ '#') (hstays : ∀ n ∈ columns, n ≤ p.column)
    (hline : (block ⟨c :: cs, p.index + 1, p.line, p.column + 1⟩ columns none false tokens).inLine c cs =
      .ok (block q columns none allowed (t :: tokens))) (ht : t ≠ .finish)
    (hshort : q.rest.length ≤ cs.length) (h : (block q columns none allowed (t :: tokens)).Yields ts) :
    (block p columns none false tokens).Yields ts := by
  have hmoved := Cursor.moveTo_of_char hrest (by decide) (by decide)
  have hskip : skipGap false p.rest = (false, c :: cs) := by
    have hone := skipGap_spaces 1 (c :: cs)
    rw [skipGap_of_begins hgap hcomment] at hone
    rw [hrest]
    exact hone
  have hmark : p.rest.head? ≠ some '\uFEFF' := by
    rw [hrest]
    exact fun heq => absurd (Option.some.inj heq) (by decide)
  obtain ⟨htake, hdrop⟩ := takeWhile_of_stays (p.column + 1)
    fun n hn => Nat.le_succ_of_le (hstays n hn)
  have hat : (block p columns none false tokens).atToken = _ :=
    atToken_block hmark hskip fun k hk => absurd hk (Option.not_mem_none k)
  rw [hmoved, htake, hdrop] at hat
  have hnext := next_of_atToken hat rfl fun hzero => absurd hzero (Nat.succ_ne_zero _)
  change _ = (block ⟨c :: cs, p.index + 1, p.line, p.column + 1⟩ columns none false tokens).inLine c cs >>=
    settled at hnext
  rw [hline] at hnext
  refine yields_of_next hnext (fun heq => ht (Option.some.inj heq)) rfl ?_ h
  change q.rest.length < p.rest.length
  rw [hrest]
  exact Nat.lt_succ_of_le (Nat.le_succ_of_le hshort)

theorem readsAs_plain {text : List Char} (hbegins : ∀ rest, BeginsScalar c (cs ++ '\n' :: rest))
    (hscan : ∀ margin body, Plain.NextLine valueIndent margin body →
      Plain.scan false valueIndent .none (c :: cs ++ '\n' :: (List.replicate margin ' ' ++ body)) =
        (text, true, body)) : ReadsAs (' ' :: c :: cs) (.scalar true (String.ofList text)) := by
  intro p columns tokens ts margin body hrest hcolumns hstays hline h
  have hbegin := hbegins (List.replicate margin ' ' ++ body)
  have hcomment : c ≠ '#' := by
    rintro rfl
    exact absurd hbegin.plain (by decide)
  have hstart : p.rest = ' ' :: c :: (cs ++ '\n' :: (List.replicate margin ' ' ++ body)) := hrest
  -- the lines of the value are those right of the innermost mapping
  have hread : Plain.scan false ((columns.head?.map (· + 1)).getD 0) .none
      (c :: (cs ++ '\n' :: (List.replicate margin ' ' ++ body))) = (text, true, body) := by
    rw [hcolumns]
    exact hscan margin body hline
  have hnew := begins_of_nextLine (c :: cs) hline (p :=
    ⟨c :: (cs ++ '\n' :: (List.replicate margin ' ' ++ body)), p.index + 1, p.line, p.column + 1⟩) rfl
  refine yields_token hstart hbegin.gap hcomment hstays
    ((inLine_plain hbegin rfl).trans (plainScalar_value hread)) nofun ?_ (h _ true hnew)
  rw [Cursor.rest_moveTo _ (c :: cs ++ '\n' :: List.replicate margin ' ') body (by simp)]
  simp only [List.length_append, List.length_cons]
  omega

theorem quotedScalar_value {double : Bool} {text rest : List Char}
    (hscan : Quoted.scan double .word (p.rest.drop 1) = .ok (text, rest)) :
    (block p columns none false tokens).quotedScalar double =
      .ok (block (p.moveTo rest) columns none false (.scalar false (String.ofList text) :: tokens)) := by
  have hsave : (block p columns none false tokens).savePlace =
      .ok (block p columns none false tokens) := rfl
  have hread : Quoted.scan double .word ((block p columns none false tokens).rest.drop 1) =
      .ok (text, rest) := hscan
  rw [quotedScalar, hsave]
  simp only [bind, Except.bind, hread]
  rfl

theorem readsAs_quoted (double : Bool) {text : List Char}
    (hmark : c = if double then '"' else '\'')
    (hscan : ∀ rest, Quoted.scan double .word (cs ++ '\n' :: rest) = .ok (text, '\n' :: rest)) :
    ReadsAs (' ' :: c :: cs) (.scalar false (String.ofList text)) := by
  intro p columns tokens ts margin body hrest hcolumns hstays hline h
  have hgap : isGap c = false := by
    rw [hmark]
    cases double <;> decide
  have hcomment : c ≠ '#' := by
    rw [hmark]
    cases double <;> decide
  have hstart : p.rest = ' ' :: c :: (cs ++ '\n' :: (List.replicate margin ' ' ++ body)) := hrest
  have hquoted : ∀ s : Scanner, ∀ ds, s.inFlow = false → s.inLine c ds = s.quotedScalar double := by
    intro s ds hflow
    rw [hmark]
    cases double <;> rfl
  have hread : Quoted.scan double .word
      ((c :: (cs ++ '\n' :: (List.replicate margin ' ' ++ body))).drop 1) =
        .ok (text, '\n' :: (List.replicate margin ' ' ++ body)) := hscan _
  have hend : (Cursor.moveTo ⟨c :: (cs ++ '\n' :: (List.replicate margin ' ' ++ body)), p.index + 1,
      p.line, p.column + 1⟩ ('\n' :: (List.replicate margin ' ' ++ body))).rest =
        '\n' :: (List.replicate margin ' ' ++ body) := Cursor.rest_moveTo _ (c :: cs) _ rfl
  refine yields_token hstart hgap hcomment hstays ((hquoted _ _ rfl).trans (quotedScalar_value hread)) nofun
    ?_ (h _ false (begins_of_lineEnd hline hend))
  rw [hend]
  simp only [List.length_append, List.length_cons]
  omega

end Scanner

namespace Written

/-! ## Written texts -/

/-- Whether a text can be written as it is, whatever kind of value it then stands for. -/
def isUnmarked (cs : List Char) : Bool :=
  !needsEscapes cs && !cs.any isBreak && cs.head? ≠ some ' ' && cs.getLast? ≠ some ' ' &&
    !looksOtherwise cs

theorem isPlain_eq (cs : List Char) : isPlain cs = (isUnmarked cs && Tag.ofText cs = .text) := rfl

open Scanner in
theorem readsAs_unmarked {c : Char} {cs : List Char} (h : isUnmarked (c :: cs) = true) (column : Nat) :
    ReadsAs (' ' :: runs false true column .none (c :: cs)) (.scalar true (String.ofList (c :: cs))) := by
  simp only [isUnmarked, Bool.and_eq_true, Bool.not_eq_true', decide_eq_true_eq] at h
  obtain ⟨⟨⟨⟨hescapes, hlines⟩, hfirst⟩, hlast⟩, hother⟩ := h
  have hshown := isShown_of_not_needsEscapes hescapes
  have hbreak : ∀ d ∈ c :: cs, isBreak d = false := by
    intro d hd
    simpa using List.any_eq_false.mp hlines d hd
  have hspace : c ≠ ' ' := fun hc => hfirst (congrArg some hc)
  have hgap := isGap_eq_false (hshown c List.mem_cons_self) hspace (hbreak c List.mem_cons_self)
  simp only [looksOtherwise, Bool.or_eq_false_iff] at hother
  obtain ⟨⟨⟨-, hplain⟩, hmark⟩, hseparate⟩ := hother
  have hmark' : c = '-' ∨ c = '?' ∨ c = ':' → atGap cs = false := by
    intro hc
    by_contra hatGap
    rw [Bool.not_eq_false] at hatGap
    rw [hatGap, Bool.and_true] at hmark
    obtain rfl | rfl | rfl := hc <;> exact absurd hmark (by decide)
  -- what stands before the text counts as no gap, or a number sign would begin a comment
  have hbare : Bare 'a' (c :: cs) := by
    refine ⟨hshown, hbreak, ?_, ?_⟩
    · rwa [List.getLast?_cons_cons]
    · have hcolon : (c = ':' && atGap cs) = false := by
        rw [Bool.and_eq_false_iff, decide_eq_false_iff_not, or_iff_not_imp_left, not_not]
        exact fun hc => hmark' (.inr (.inr hc))
      have hbefore : isGap 'a' = false := by decide
      rw [hasSeparator, hcolon, hbefore, hseparate, Bool.and_false]
      rfl
  have hruns : runs false true column .none (c :: cs) = c :: runs false false (column + 1) .none cs := by
    rw [runs_char hspace (hbreak c List.mem_cons_self)]
    rfl
  rw [hruns]
  refine readsAs_plain (fun rest => ⟨hgap, hplain, fun hc => ?_⟩) fun margin body hline => ?_
  · exact atGap_runs (fun d hd => hshown d (List.mem_cons_of_mem c hd))
      (fun d hd => hbreak d (List.mem_cons_of_mem c hd)) (hmark' hc) _
  · rw [← hruns]
    exact scan_runs_bare .none hbare trivial (by decide) hline true column

theorem quotable_of_not_needsEscapes {cs : List Char} (h : needsEscapes cs = false) :
    Quotable .none cs := by
  obtain ⟨hboth, hafter⟩ := Bool.or_eq_false_iff.mp h
  obtain ⟨-, hbefore⟩ := Bool.or_eq_false_iff.mp hboth
  exact ⟨trivial, isShown_of_not_needsEscapes h, hbefore, hafter, nofun, nofun⟩

/-- The token of a written text. -/
def token (cs : List Char) : Token :=
  .scalar (styleOf cs = .plain) (String.ofList (restored cs))

open Scanner in
theorem readsAs_scalar (column : Nat) (text : String) :
    ReadsAs (scalar column text).toList (token text.toList) := by
  rw [scalar, token, restored]
  split
  · rename_i hstyle
    have hplain := (styleOf_eq_plain_iff _).mp hstyle
    rw [isPlain_eq, Bool.and_eq_true] at hplain
    obtain ⟨hunmarked, htag⟩ := hplain
    obtain ⟨c, cs, htext⟩ : ∃ c cs, text.toList = c :: cs := by
      refine List.exists_cons_of_ne_nil fun hnil => ?_
      rw [hnil] at htag
      exact absurd htag (by decide)
    rw [hstyle, htext, String.toList_ofList]
    rw [htext] at hunmarked
    exact readsAs_unmarked hunmarked _
  · rename_i hstyle
    obtain ⟨-, hescapes⟩ := (styleOf_eq_single_iff _).mp hstyle
    rw [hstyle, String.toList_ofList]
    exact readsAs_quoted false rfl fun rest =>
      scan_runs (quotable_of_not_needsEscapes hescapes) true _ rest
  · rename_i hstyle
    rw [hstyle, String.toList_ofList]
    refine readsAs_quoted true rfl fun rest => ?_
    exact Quoted.scan_escapes (.word _ _) true true _

end Written
end SerialAudit.Document
