import SerialAudit.Document.Token.Scan
import SerialAudit.Proofs.Document.Plain

/-! The tokens of block collections: keys, the dashes of entries, and the end.

* `Scanner.block` : a state outside of flow collections;
* `Scanner.Yields` : what the tokens from a state on are, whatever fuel is left;
* `Scanner.Begins` : where the next token begins, in a line where it may be a key;
* `Scanner.IsName` : names that are read as keys.

A token leads from a state to one that yields the tokens after it, whatever text follows: a key with its
colon (`yields_key`), the dash of an entry (`yields_entry`), and the end (`yields_end`). -/
namespace SerialAudit.Document
set_option autoImplicit false

namespace Cursor

variable {p : Cursor} {ds : List Char}

theorem moveTo_eq (cs : List Char) (h : p.rest = cs ++ ds) : p.moveTo ds = p.forward cs.length := by
  rw [moveTo, excess_eq, h, List.length_append, Nat.add_sub_cancel]

theorem moveTo_self (h : p.rest = ds) : p.moveTo ds = p := moveTo_eq [] h

theorem forward_add (m n : Nat) (p : Cursor) : p.forward (m + n) = (p.forward m).forward n := by
  induction m generalizing p with
  | zero => rw [Nat.zero_add]; rfl
  | succ m ih =>
    rw [Nat.succ_add]
    exact ih p.next

/-- Characters within a line move a position along it. -/
theorem moveTo_of_line (cs : List Char) (h : p.rest = cs ++ ds)
    (hcs : ∀ c ∈ cs, isBreak c = false ∧ c ≠ '\uFEFF') :
    p.moveTo ds = ⟨ds, p.index + cs.length, p.line, p.column + cs.length⟩ := by
  induction cs generalizing p with
  | nil =>
    have hrest : p.rest = ds := h
    rw [moveTo_self hrest]
    cases p
    cases h
    rfl
  | cons c cs ih =>
    obtain ⟨hbreak, hmark⟩ := hcs c List.mem_cons_self
    have hnext : p.next = ⟨cs ++ ds, p.index + 1, p.line, p.column + 1⟩ := by
      rw [next, h]
      simp only [List.cons_append, hbreak, Bool.false_eq_true, if_false, hmark]
    have hrest : p.next.rest = cs ++ ds := by rw [hnext]
    have htail := ih hrest fun d hd => hcs d (List.mem_cons_of_mem c hd)
    rw [moveTo_eq cs hrest] at htail
    rw [moveTo_eq (c :: cs) h, List.length_cons, forward, htail, hnext, Nat.add_right_comm,
      Nat.add_right_comm p.column]
    rfl

theorem moveTo_of_char {c : Char} (h : p.rest = c :: ds) (hbreak : isBreak c = false)
    (hmark : c ≠ '\uFEFF') : p.moveTo ds = ⟨ds, p.index + 1, p.line, p.column + 1⟩ :=
  moveTo_of_line [c] h fun d hd => by
    obtain rfl := List.mem_singleton.mp hd
    exact ⟨hbreak, hmark⟩

/-- A position after a line break stands in the column of its indentation. -/
theorem column_moveTo (cs : List Char) {margin : Nat}
    (h : p.rest = cs ++ '\n' :: (List.replicate margin ' ' ++ ds)) :
    (p.moveTo ds).column = margin := by
  have hall : p.rest = (cs ++ '\n' :: List.replicate margin ' ') ++ ds := by
    rw [h, List.append_assoc, List.cons_append]
  have hrest : (p.forward cs.length).rest = '\n' :: (List.replicate margin ' ' ++ ds) := by
    rw [rest_forward, h, List.drop_left]
  have hline : (p.forward cs.length).next =
      ⟨List.replicate margin ' ' ++ ds, (p.forward cs.length).index + 1,
        (p.forward cs.length).line + 1, 0⟩ := by
    rw [next, hrest]
    rfl
  have hspaces : ∀ c ∈ List.replicate margin ' ', isBreak c = false ∧ c ≠ '\uFEFF' := by
    intro c hc
    rw [List.eq_of_mem_replicate hc]
    decide
  have hnext : (p.forward cs.length).next.rest = List.replicate margin ' ' ++ ds := by rw [hline]
  have hmargin := moveTo_of_line (List.replicate margin ' ') hnext hspaces
  rw [moveTo_eq _ hnext] at hmargin
  rw [moveTo_eq _ hall, List.length_append, List.length_cons, forward_add, forward, hmargin, hline,
    List.length_replicate, Nat.zero_add]

end Cursor

namespace Scanner

/-! ## Runs -/

def block (p : Cursor) (columns : List Nat) (place : Option KeyPlace) (allowed : Bool)
    (tokens : List Token) : Scanner :=
  ⟨p, columns, place, [], allowed, tokens, tokens.length, none⟩

def Yields (s : Scanner) (ts : List Token) : Prop :=
  ∀ fuel given, s.rest.length < fuel → s.run fuel given = ts

variable {s t : Scanner} {ts : List Token}

theorem yields_of_next (hnext : s.next = .ok t) (hgoes : t.tokens.head? ≠ some .finish)
    (hfresh : t.dropStale = .ok t) (hshort : t.rest.length < s.rest.length) (h : t.Yields ts) :
    s.Yields ts := by
  intro fuel given hfuel
  obtain ⟨fuel, rfl⟩ : ∃ n, fuel = n + 1 := ⟨fuel - 1, by omega⟩
  rw [run, hnext]
  dsimp only
  rw [if_neg hgoes, hfresh]
  exact h fuel t.free (by omega)

theorem yields_of_finish (hnext : s.next = .ok t) (hends : t.tokens.head? = some .finish) :
    s.Yields t.tokens.reverse := by
  intro fuel given hfuel
  obtain ⟨fuel, rfl⟩ : ∃ n, fuel = n + 1 := ⟨fuel - 1, by omega⟩
  rw [run, hnext]
  dsimp only
  rw [if_pos hends]

variable {p : Cursor} {columns : List Nat} {place : Option KeyPlace} {allowed newLine : Bool}
  {tokens : List Token} {c : Char} {cs body : List Char}

theorem dropStale_block (h : ∀ k ∈ place, (block p columns place allowed tokens).isStale k = false) :
    (block p columns place allowed tokens).dropStale = .ok (block p columns place allowed tokens) := by
  cases place with
  | none => rfl
  | some k =>
    have hstale : (some k).filter (block p columns (some k) allowed tokens).isStale = none := by
      rw [Option.filter, h k rfl]
      rfl
    have hfresh : (some k).filter (fun k' => !(block p columns (some k) allowed tokens).isStale k') =
        some k := by
      rw [Option.filter, h k rfl]
      rfl
    have hplace : (block p columns (some k) allowed tokens).place = some k := rfl
    have houter : (block p columns (some k) allowed tokens).outer = [] := rfl
    simp only [dropStale, hplace, houter, hstale, hfresh, List.any_cons, List.any_nil, Option.any_none,
      Bool.or_self]
    rfl

theorem close_block (column : Nat) : (block p columns place allowed tokens).close (· ≤ column) =
    block p (columns.dropWhile (column < ·)) place allowed
      ((columns.takeWhile (column < ·)).map (fun _ => .blockEnd) ++ tokens) := by
  have hstays : ∀ n, (!decide (n ≤ column)) = decide (column < n) := by
    intro n
    rw [← decide_not]
    exact decide_eq_decide.mpr Nat.not_le
  have hdrop : columns.drop (columns.takeWhile (column < ·)).length = columns.dropWhile (column < ·) := by
    have hsplit : columns.takeWhile (column < ·) ++ columns.dropWhile (column < ·) = columns :=
      List.takeWhile_append_dropWhile
    have hleft : (columns.takeWhile (column < ·) ++ columns.dropWhile (column < ·)).drop
        (columns.takeWhile (column < ·)).length = columns.dropWhile (column < ·) := List.drop_left
    rwa [hsplit] at hleft
  have hflow : (block p columns place allowed tokens).inFlow = false := rfl
  rw [close, hflow, if_neg Bool.false_ne_true]
  simp only [block, hstays, hdrop, List.length_append, List.length_map, Nat.add_comm]

theorem atToken_block (hmark : p.rest.head? ≠ some '\uFEFF')
    (hgap : skipGap false p.rest = (newLine, body))
    (hplace : ∀ k ∈ place,
      (block (p.moveTo body) columns place (allowed || newLine) tokens).isStale k = false) :
    (block p columns place allowed tokens).atToken =
      .ok (block (p.moveTo body) (columns.dropWhile ((p.moveTo body).column < ·)) place
        (allowed || newLine)
        ((columns.takeWhile ((p.moveTo body).column < ·)).map (fun _ => .blockEnd) ++ tokens)) := by
  have htext : (if (block p columns place allowed tokens).cursor.index = 0 &&
      (block p columns place allowed tokens).rest.head? = some '\uFEFF' then
        (block p columns place allowed tokens).rest.drop 1
      else (block p columns place allowed tokens).rest) = p.rest := by
    rw [if_neg]
    · rfl
    · intro h
      exact hmark (of_decide_eq_true (Bool.and_eq_true_iff.mp h).2)
  rw [atToken, htext, hgap]
  have hending : (body.isEmpty && (block p columns place allowed tokens).ending.isSome) = false :=
    Bool.and_false _
  dsimp only
  rw [hending, if_neg Bool.false_ne_true]
  have hmoved : ((block p columns place allowed tokens).moveTo body).allowKey
      ((block p columns place allowed tokens).keyAllowed ||
        (newLine && !(block p columns place allowed tokens).inFlow)) =
      block (p.moveTo body) columns place (allowed || newLine) tokens := by
    have hflow : (block p columns place allowed tokens).inFlow = false := rfl
    rw [hflow, Bool.not_false, Bool.and_true]
    rfl
  rw [hmoved, dropStale_block hplace, ← close_block]
  rfl

/-! ## Lines -/

/-- The next token begins at a column, where it may be a key. -/
structure Begins (p : Cursor) (allowed : Bool) (column : Nat) (body : List Char) : Prop where
  mark : p.rest.head? ≠ some '\uFEFF'
  gap : ∃ newLine, skipGap false p.rest = (newLine, body) ∧ (allowed || newLine) = true
  rest : (p.moveTo body).rest = body
  column : (p.moveTo body).column = column
  length : body.length ≤ p.rest.length

/-- The state at a token at the beginning of which a key may stand. -/
theorem Begins.atToken {column : Nat} (h : Begins p allowed column body) (columns : List Nat)
    (tokens : List Token) :
    (block p columns none allowed tokens).atToken =
      .ok (block (p.moveTo body) (columns.dropWhile (column < ·)) none true
        ((columns.takeWhile (column < ·)).map (fun _ => .blockEnd) ++ tokens)) := by
  obtain ⟨newLine, hgap, hkey⟩ := h.gap
  rw [atToken_block h.mark hgap fun k hk => absurd hk (Option.not_mem_none k), h.column, hkey]

theorem next_of_atToken (hat : s.atToken = .ok t) (hrest : t.rest = c :: cs)
    (hcolumn : t.cursor.column = 0 → c ≠ '%' ∧ atMarker (c :: cs) = false) :
    s.next = t.inLine c cs >>= settled := by
  rw [next, hat]
  simp only [bind, Except.bind, hrest]
  by_cases hzero : t.cursor.column = 0
  · obtain ⟨hpercent, hmarker⟩ := hcolumn hzero
    simp [hpercent, hmarker]
  · simp [hzero]

/-! ## Plain scalars -/

/-- A character that a plain scalar begins with. -/
structure BeginsScalar (c : Char) (cs : List Char) : Prop where
  gap : isGap c = false
  plain : Written.indicators.contains c = false
  mark : c = '-' ∨ c = '?' ∨ c = ':' → atGap cs = false

theorem inLine_plain (h : BeginsScalar c cs) (hflow : s.inFlow = false) :
    s.inLine c cs = s.plainScalar := by
  have hno : ∀ d, Written.indicators.contains d = true → c ≠ d := by
    rintro d hd rfl
    rw [h.plain] at hd
    cases hd
  have hbegins : beginsPlain false c cs = true := by
    rw [beginsPlain, h.gap]
    by_cases hmark : c = '-' ∨ c = '?' ∨ c = ':'
    · rw [h.mark hmark]
      simp [hmark]
    · have hplain : indicators.contains c = false := by
        have hall : indicators.all (fun d =>
            (d = '-' ∨ d = '?' ∨ d = ':') || Written.indicators.contains d) = true := by
          decide
        rw [Bool.eq_false_iff]
        intro hc
        have hboth := List.all_eq_true.mp hall c (List.contains_iff_mem.mp hc)
        rw [Bool.or_eq_true, decide_eq_true_eq] at hboth
        exact hboth.elim hmark fun hd => hno c hd rfl
      rw [hplain]
      rfl
  have hentry : (c = '-' && atGap cs) = false := by
    rw [Bool.and_eq_false_iff, decide_eq_false_iff_not, or_iff_not_imp_left, not_not]
    exact fun hc => h.mark (.inl hc)
  have hkey : (c = '?' && (s.inFlow || atGap cs)) = false := by
    rw [hflow, Bool.false_or, Bool.and_eq_false_iff, decide_eq_false_iff_not, or_iff_not_imp_left,
      not_not]
    exact fun hc => h.mark (.inr (.inl hc))
  have hvalue : (c = ':' && (s.inFlow || atGap cs)) = false := by
    rw [hflow, Bool.false_or, Bool.and_eq_false_iff, decide_eq_false_iff_not, or_iff_not_imp_left,
      not_not]
    exact fun hc => h.mark (.inr (.inr hc))
  rw [inLine, if_neg (hno '[' (by decide)), if_neg (hno '{' (by decide)), if_neg (hno ']' (by decide)),
    if_neg (hno '}' (by decide)), if_neg (hno ',' (by decide)), hentry, if_neg Bool.false_ne_true,
    hkey, if_neg Bool.false_ne_true, hvalue, if_neg Bool.false_ne_true, if_neg (hno '*' (by decide)),
    if_neg (hno '&' (by decide)), if_neg (hno '!' (by decide)), hflow, hbegins]
  simp [hno '|' (by decide), hno '>' (by decide), hno '\'' (by decide), hno '"' (by decide)]

/-! ## Keys -/

def isLetter (c : Char) : Bool := c.isAlpha || c = '_'

structure IsName (name : List Char) : Prop where
  nonempty : name ≠ []
  letters : ∀ c ∈ name, isLetter c = true
  short : name.length ≤ keyLimit

theorem ne_of_isLetter (h : isLetter c = true) {d : Char} (hd : isLetter d = false) : c ≠ d := by
  rintro rfl
  rw [h] at hd
  cases hd

theorem isGap_of_isLetter (h : isLetter c = true) : isGap c = false := by
  rw [Bool.eq_false_iff]
  intro hgap
  simp only [isGap, isBlank, isBreak, Bool.or_eq_true, decide_eq_true_eq] at hgap
  obtain (rfl | rfl) | ((rfl | rfl) | rfl) | rfl := hgap <;> exact absurd h (by decide)

theorem isBreak_of_isLetter (h : isLetter c = true) : isBreak c = false ∧ c ≠ '\uFEFF' :=
  ⟨(Bool.or_eq_false_iff.mp (isGap_of_isLetter h)).2, ne_of_isLetter h (by decide)⟩

theorem beginsScalar_of_isLetter (h : isLetter c = true) : BeginsScalar c cs where
  gap := isGap_of_isLetter h
  plain := by
    have hall : Written.indicators.all (!isLetter ·) = true := by decide
    rw [Bool.eq_false_iff]
    intro hc
    have hno := List.all_eq_true.mp hall c (List.contains_iff_mem.mp hc)
    rw [h] at hno
    cases hno
  mark hc := by
    obtain rfl | rfl | rfl := hc <;> exact absurd h (by decide)

theorem scan_name {name after : List Char} (hname : ∀ c ∈ name, isLetter c = true)
    (hafter : atGap after = true) (indent : Nat) :
    Plain.scan false indent .none (name ++ ':' :: after) = (name, false, ':' :: after) := by
  induction name with
  | nil =>
    have hstops : Plain.stops false ':' after = true := by
      have hends : endsOr (fun d => isGap d || (false && Plain.flowIndicators.contains d)) after =
          true := by
        simp only [Bool.false_and, Bool.or_false]
        exact hafter
      rw [Plain.stops, hends]
      rfl
    rw [List.nil_append, Plain.scan, if_neg (by decide), if_neg (by decide), hstops, Bool.true_or,
      if_pos rfl]
    rfl
  | cons c cs ih =>
    have hc := hname c List.mem_cons_self
    rw [List.cons_append, Plain.scan_char (isGap_of_isLetter hc) ?_ rfl,
      ih fun d hd => hname d (List.mem_cons_of_mem c hd)]
    · rfl
    · exact fun h => absurd h (ne_of_isLetter hc (by decide))

theorem plainScalar_key (tokens : List Token) {text rest : List Char}
    (hscan : Plain.scan false ((columns.head?.map (· + 1)).getD 0) .none p.rest =
      (text, newLine, rest)) :
    (block p columns none true tokens).plainScalar =
      .ok (block (p.moveTo rest) columns
        (some ⟨tokens.length, columns.head? = some p.column, p.index, p.line, p.column⟩) newLine
        (.scalar true (String.ofList text) :: tokens)) := by
  let place : KeyPlace := ⟨tokens.length, columns.head? = some p.column, p.index, p.line, p.column⟩
  have hsave : (block p columns none true tokens).savePlace =
      .ok (block p columns (some place) true tokens) := rfl
  have hread : Plain.scan (block p columns (some place) true tokens).inFlow
      (block p columns (some place) true tokens).indent .none
      (block p columns (some place) true tokens).rest = (text, newLine, rest) := hscan
  rw [plainScalar, hsave]
  simp only [bind, Except.bind, hread]
  rfl

theorem plainScalar_value {text rest : List Char}
    (hscan : Plain.scan false ((columns.head?.map (· + 1)).getD 0) .none p.rest =
      (text, newLine, rest)) :
    (block p columns none false tokens).plainScalar =
      .ok (block (p.moveTo rest) columns none newLine (.scalar true (String.ofList text) :: tokens)) := by
  have hsave : (block p columns none false tokens).savePlace =
      .ok (block p columns none false tokens) := rfl
  have hread : Plain.scan (block p columns none false tokens).inFlow
      (block p columns none false tokens).indent .none
      (block p columns none false tokens).rest = (text, newLine, rest) := hscan
  rw [plainScalar, hsave]
  simp only [bind, Except.bind, hread]
  rfl

/-- The columns of the block collections, once a mapping has a key at a column. -/
def opened (column : Nat) (columns : List Nat) : List Nat :=
  if columns.head?.all (· < column) then column :: columns else columns

/-- The token of the mapping that is opened by a key at a column, if one is. -/
def opening (column : Nat) (columns : List Nat) : List Token :=
  if columns.head?.all (· < column) then [.blockMappingStart] else []

theorem insert_block (ts : List Token) (t : Token) :
    (block p columns place allowed (ts ++ tokens)).insert tokens.length t =
      block p columns place allowed (ts ++ t :: tokens) := by
  simp only [insert, block, List.length_append, List.length_cons, Nat.add_sub_cancel, List.take_left,
    List.drop_left, Nat.add_assoc]

theorem openAt_block (ts : List Token) (column : Nat) :
    (block p columns place allowed (ts ++ tokens)).openAt .blockMappingStart column tokens.length =
      block p (opened column columns) place allowed (ts ++ (opening column columns ++ tokens)) := by
  have hflow : (block p columns place allowed (ts ++ tokens)).inFlow = false := rfl
  have hcolumns : (block p columns place allowed (ts ++ tokens)).columns = columns := rfl
  rw [openAt, hflow, hcolumns, opened, opening, Bool.false_or]
  by_cases hopens : columns.head?.all (· < column) = true
  · simp only [hopens]
    exact insert_block ts .blockMappingStart
  · simp only [hopens]
    rfl

theorem value_of_place {k : KeyPlace} (hcount : k.count = tokens.length) (t : Token) :
    (block p columns (some k) allowed (t :: tokens)).value =
      .ok (block (p.moveTo (p.rest.drop 1)) (opened k.column columns) none false
        (.value :: t :: .key :: (opening k.column columns ++ tokens))) := by
  have hkey : (block p columns none allowed (t :: tokens)).insert k.count .key =
      block p columns none allowed (t :: .key :: tokens) := by
    rw [hcount]
    exact insert_block [t] .key
  have hopen : (block p columns none allowed (t :: .key :: tokens)).openAt .blockMappingStart k.column
      k.count = block p (opened k.column columns) none allowed
        (t :: .key :: (opening k.column columns ++ tokens)) := by
    rw [hcount]
    exact openAt_block [t, .key] k.column
  have hvalue : ∀ s : Scanner, s = (block p columns none allowed (t :: tokens)).insert k.count .key →
      (block p columns (some k) allowed (t :: tokens)).value =
        .ok (((s.openAt .blockMappingStart k.column k.count).allowKey false).emit .value |>.moveTo
          ((s.openAt .blockMappingStart k.column k.count).rest.drop 1)) := by
    rintro s rfl
    rfl
  rw [hvalue _ hkey.symm, hopen]
  rfl

theorem takeWhile_of_stays (column : Nat) (h : ∀ n ∈ columns, n ≤ column) :
    columns.takeWhile (column < ·) = [] ∧ columns.dropWhile (column < ·) = columns := by
  cases columns with
  | nil => exact ⟨rfl, rfl⟩
  | cons n ns =>
    have hn : decide (column < n) = false := decide_eq_false (Nat.not_lt.mpr (h n List.mem_cons_self))
    rw [List.takeWhile_cons, List.dropWhile_cons, hn]
    exact ⟨rfl, rfl⟩

theorem inLine_colon {after : List Char} (hafter : atGap after = true) :
    s.inLine ':' after = s.value := by
  rw [inLine, hafter, Bool.or_true]
  rfl

theorem yields_value {k : KeyPlace} {t : Token} {after : List Char} (hrest : p.rest = ':' :: after)
    (hafter : atGap after = true) (hcount : k.count = tokens.length) (hline : k.line = p.line)
    (hindex : p.index ≤ k.index + keyLimit) (hcolumn : p.column ≠ 0)
    (hstays : ∀ n ∈ columns, n ≤ p.column)
    (h : (block (p.moveTo after) (opened k.column columns) none false
      (.value :: t :: .key :: (opening k.column columns ++ tokens))).Yields ts) :
    (block p columns (some k) false (t :: tokens)).Yields ts := by
  have hgap : skipGap false p.rest = (false, p.rest) := by
    rw [hrest]
    rfl
  have hmark : p.rest.head? ≠ some '\uFEFF' := by
    rw [hrest]
    exact fun heq => absurd (Option.some.inj heq) (by decide)
  have hself : p.moveTo p.rest = p := Cursor.moveTo_self rfl
  have hfresh : ∀ k' ∈ some k,
      (block (p.moveTo p.rest) columns (some k) (false || false) (t :: tokens)).isStale k' = false := by
    intro k' hk
    obtain rfl : k = k' := Option.some.inj hk
    rw [hself]
    simp [isStale, block, hline, hindex]
  have hat := atToken_block hmark hgap hfresh
  obtain ⟨htake, hdrop⟩ := takeWhile_of_stays _ hstays
  rw [hself, htake, hdrop] at hat
  have hnext := next_of_atToken hat hrest fun hzero => absurd hzero hcolumn
  -- the key and the mapping that it opens are put before the name, which is read already
  rw [inLine_colon hafter] at hnext
  change _ = (block p columns (some k) false (t :: tokens)).value >>= settled at hnext
  have hafter' : p.rest.drop 1 = after := by rw [hrest]; rfl
  rw [value_of_place hcount, hafter'] at hnext
  refine yields_of_next hnext nofun rfl ?_ h
  change (p.moveTo after).rest.length < p.rest.length
  rw [Cursor.rest_moveTo p [':'] after hrest, hrest, List.length_cons]
  exact Nat.lt_succ_self _

/-- A key and its colon. -/
theorem yields_key {column : Nat} {name after : List Char} (hname : IsName name)
    (hafter : atGap after = true) (hat : Begins p allowed column (name ++ ':' :: after))
    (hstays : ∀ n ∈ columns, n ≤ column)
    (h : ∀ q : Cursor, q.rest = after → column < q.column →
      (block q (opened column columns) none false (.value :: .scalar true (String.ofList name) :: .key ::
        (opening column columns ++ tokens))).Yields ts) :
    (block p columns none allowed tokens).Yields ts := by
  obtain ⟨c, cs, rfl⟩ := List.exists_cons_of_ne_nil hname.nonempty
  have hc := hname.letters c List.mem_cons_self
  obtain ⟨htake, hdrop⟩ := takeWhile_of_stays _ hstays
  have htoken := hat.atToken columns tokens
  rw [htake, hdrop] at htoken
  have hrest : (p.moveTo (c :: cs ++ ':' :: after)).rest = c :: (cs ++ ':' :: after) := hat.rest
  have hnext := next_of_atToken htoken hrest fun _ =>
    ⟨ne_of_isLetter hc (by decide), atMarker_cons (ne_of_isLetter hc (by decide))
      (ne_of_isLetter hc (by decide)) _⟩
  rw [inLine_plain (beginsScalar_of_isLetter hc) rfl] at hnext
  have hscan := scan_name hname.letters hafter ((columns.head?.map (· + 1)).getD 0)
  rw [← hat.rest] at hscan
  have hkey := plainScalar_key tokens hscan
  have hline := Cursor.moveTo_of_line _ hat.rest fun d hd => isBreak_of_isLetter (hname.letters d hd)
  rw [List.map_nil, List.nil_append, hkey, hline] at hnext
  have hindex : (p.moveTo (c :: cs ++ ':' :: after)).index + (c :: cs).length ≤
      (p.moveTo (c :: cs ++ ':' :: after)).index + keyLimit :=
    Nat.add_le_add_left hname.short _
  have hcolumn : column < (p.moveTo (c :: cs ++ ':' :: after)).column + (c :: cs).length := by
    rw [hat.column, List.length_cons]
    omega
  -- the place of the key is kept up to the colon, since the name is short and ends in its line
  refine yields_of_next hnext nofun ?_ ?_ ?_
  · refine dropStale_block fun k hk => ?_
    obtain rfl := Option.some.inj hk
    simpa [isStale, block] using hname.short
  · have hlength := hat.length
    rw [List.length_append, List.length_cons] at hlength
    change (':' :: after).length < p.rest.length
    rw [List.length_cons] at hlength ⊢
    omega
  · refine yields_value rfl hafter rfl rfl hindex (Nat.ne_of_gt (Nat.zero_lt_of_lt hcolumn))
      (fun n hn => Nat.le_trans (hstays n hn) (Nat.le_of_lt hcolumn)) ?_
    rw [Cursor.moveTo_of_char rfl (by decide) (by decide), hat.column]
    refine h _ rfl ?_
    rw [hat.column] at hcolumn
    exact Nat.lt_succ_of_lt hcolumn

/-! ## Entries and the end -/

theorem blockEntry_block (hcolumn : p.column = 0) (hzero : columns.head? = some 0) :
    (block p columns none true tokens).blockEntry =
      .ok (block (p.moveTo (p.rest.drop 1)) columns none true (.blockEntry :: tokens)) := by
  have hopen : (block p columns none true tokens).openHere .blockSequenceStart =
      block p columns none true tokens := by
    have hcolumns : (block p columns none true tokens).columns.head? = some 0 := hzero
    have hcursor : (block p columns none true tokens).cursor.column = 0 := hcolumn
    rw [openHere, openAt, hcolumns, hcursor]
    exact if_pos (Bool.or_true _)
  have hentry : ∀ s : Scanner, s = (block p columns none true tokens).openHere .blockSequenceStart →
      (block p columns none true tokens).blockEntry =
        ((s.allowKey true).dropPlace >>= fun s => .ok (s.emit .blockEntry |>.moveTo (s.rest.drop 1))) := by
    rintro s rfl
    rfl
  rw [hentry _ hopen.symm]
  rfl

/-- The ends of the block collections that an entry closes before it begins. -/
def pending (columns : List Nat) : List Token := (columns.takeWhile (0 < ·)).map fun _ => .blockEnd

/-- The dash of an entry, where the sequence stands as far left as the mapping around it. -/
theorem yields_entry {cs : List Char} (hat : Begins p allowed 0 ('-' :: ' ' :: cs))
    (hzero : (columns.dropWhile (0 < ·)).head? = some 0)
    (h : ∀ q : Cursor, q.rest = ' ' :: cs → q.column = 1 →
      (block q (columns.dropWhile (0 < ·)) none true (.blockEntry ::
        (pending columns ++ tokens))).Yields ts) :
    (block p columns none allowed tokens).Yields ts := by
  have hrest : (p.moveTo ('-' :: ' ' :: cs)).rest = '-' :: ' ' :: cs := hat.rest
  have hnext := next_of_atToken (hat.atToken columns tokens) hrest
    fun _ => ⟨by decide, rfl⟩
  have hentry : ∀ s : Scanner, s.inLine '-' (' ' :: cs) = s.blockEntry := fun _ => rfl
  have hline := Cursor.moveTo_of_char hrest (by decide) (by decide)
  have hdrop : (p.moveTo ('-' :: ' ' :: cs)).rest.drop 1 = ' ' :: cs := by rw [hrest]; rfl
  rw [hentry, blockEntry_block hat.column hzero, hdrop, hline] at hnext
  refine yields_of_next hnext nofun rfl
    hat.length (h _ rfl ?_)
  rw [hat.column]

theorem close_all : (block p columns place allowed tokens).close (fun _ => false) =
    block p [] place allowed (columns.map (fun _ => .blockEnd) ++ tokens) := by
  have htake : columns.takeWhile (fun _ => true) = columns := by
    induction columns with
    | nil => rfl
    | cons n ns ih => rw [List.takeWhile_cons, if_pos rfl, ih]
  have hflow : (block p columns place allowed tokens).inFlow = false := rfl
  have hcolumns : (block p columns place allowed tokens).columns = columns := rfl
  rw [close, hflow, if_neg Bool.false_ne_true, hcolumns]
  simp only [Bool.not_false, htake, block, List.drop_length, List.length_append, List.length_map,
    Nat.add_comm]

/-- The end of the text closes all collections. -/
theorem yields_end {column : Nat} (hat : Begins p allowed column []) :
    (block p columns none allowed tokens).Yields
      (tokens.reverse ++ columns.map (fun _ => .blockEnd) ++ [.finish]) := by
  have htoken := hat.atToken columns tokens
  have hrest : ∀ columns tokens, (block (p.moveTo []) columns none true tokens).rest = [] :=
    fun _ _ => hat.rest
  have hnext : (block p columns none allowed tokens).next =
      (block (p.moveTo []) (columns.dropWhile (column < ·)) none true
        ((columns.takeWhile (column < ·)).map (fun _ => .blockEnd) ++ tokens)).marker .finish 0 := by
    rw [next, htoken]
    simp only [bind, Except.bind, hrest]
  rw [marker, close_all] at hnext
  have hyields := yields_of_finish hnext rfl
  have hends : ((columns.dropWhile (column < ·)).map (fun _ => Token.blockEnd) ++
      ((columns.takeWhile (column < ·)).map (fun _ => Token.blockEnd) ++ tokens)).reverse =
      tokens.reverse ++ columns.map (fun _ => Token.blockEnd) := by
    have hcount : (columns.dropWhile (column < ·)).length + (columns.takeWhile (column < ·)).length =
        columns.length := by
      rw [Nat.add_comm, ← List.length_append, List.takeWhile_append_dropWhile]
    rw [List.map_const', List.map_const', List.map_const', ← List.append_assoc,
      List.replicate_append_replicate, hcount, List.reverse_append, List.reverse_replicate]
  change (block p columns none allowed tokens).Yields (Token.finish :: _).reverse at hyields
  rw [List.reverse_cons] at hyields
  exact hends ▸ hyields

end Scanner
end SerialAudit.Document
