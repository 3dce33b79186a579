import SerialAudit.Proofs.Document.ScalarTokens
import SerialAudit.Rulebook.Written

/-! The tokens of a written rulebook.

* `FieldValue.written`, `FieldValue.token` : what stands after the colon of a field, and its token;
* `Rulebook.linesFrom`, `Rulebook.entriesText` : the lines of fields, and those of entries;
* `Rulebook.textOf`, `Rulebook.tokensOf` : the text of a rulebook, and its tokens.

The text of a rulebook has the tokens of its entries (`scan_toText`), and is clean (`clean_toText`). -/
namespace SerialAudit
set_option autoImplicit false

open Document Document.Scanner

namespace FieldValue

/-- What is written after a colon that ends in a column. -/
def written (column : Nat) : FieldValue → List Char
  | text s => (Written.scalar column s).toList
  | flag b => (if b then " true" else " false").toList

def token : FieldValue → Token
  | text s => Written.token s.toList
  | flag b => .scalar true (if b then "true" else "false")

theorem readsAs_written (v : FieldValue) (column : Nat) : ReadsAs (v.written column) v.token := by
  cases v with
  | text s => exact Written.readsAs_scalar column s
  | flag b =>
    cases b with
    | true =>
      have hplain : Written.isUnmarked ['t', 'r', 'u', 'e'] = true := by decide
      exact Written.readsAs_unmarked hplain 0
    | false =>
      have hplain : Written.isUnmarked ['f', 'a', 'l', 's', 'e'] = true := by decide
      exact Written.readsAs_unmarked hplain 0

theorem head_written (v : FieldValue) (column : Nat) (cs : List Char) :
    atGap (v.written column ++ cs) = true := by
  cases v with
  | text s =>
    rw [written, Written.scalar]
    split <;> rw [String.toList_ofList] <;> rfl
  | flag b => cases b <;> rfl

end FieldValue

namespace Descriptor

/-- The names of the fields of a definition, which are the same for all of them. -/
def fieldNames : List String :=
  ["rule", "diagnostic_id", "title", "message_format", "severity", "category", "enabled_by_default"]

theorem map_fst_fields (d : Descriptor) : d.fields.map Prod.fst = fieldNames := rfl

theorem mem_fieldNames {d : Descriptor} {f : String × FieldValue} (h : f ∈ d.fields) :
    f.1 ∈ fieldNames := by
  rw [← d.map_fst_fields]
  exact List.mem_map_of_mem h

theorem nodup_fieldNames : fieldNames.Nodup := by
  rw [fieldNames]
  decide

end Descriptor

namespace Rulebook

/-- A field as it is written. -/
abbrev Field := String × FieldValue

variable {p : Cursor} {allowed : Bool} {columns : List Nat} {tokens ts : List Token}
  {fs : List Field} {f : Field} {tail body : List Char} {margin : Nat}

/-! ## Fields -/

def fieldTokens (f : Field) : List Token :=
  [.key, .scalar true (String.ofList f.1.toList), .value, f.2.token]

/-- The width of what stands before the name of a field. -/
def fieldMargin : Nat := 2

def marginOf : List Field → Nat
  | [] => 0
  | _ :: _ => fieldMargin

/-- The lines of fields from the name of the first one on, and the text after them. -/
def linesFrom (tail : List Char) : List Field → List Char
  | [] => tail
  | f :: fs =>
    f.1.toList ++ ':' :: (f.2.written (fieldMargin + f.1.length + 1) ++
      '\n' :: (List.replicate (marginOf fs) ' ' ++ linesFrom tail fs))

theorem nextLine_of_isName {cs : List Char} (h : IsName cs) (ds : List Char)
    (hmargin : margin < valueIndent) :
    Plain.NextLine valueIndent margin (cs ++ ds) := by
  obtain ⟨c, cs, rfl⟩ := List.exists_cons_of_ne_nil h.nonempty
  have hc := h.letters c List.mem_cons_self
  constructor
  · intro d hd
    obtain rfl : c = d := Option.some.inj hd
    exact ⟨isGap_of_isLetter hc, ne_of_isLetter hc (by decide), (isBreak_of_isLetter hc).2, hmargin⟩
  · cases margin with
    | zero => exact atMarker_cons (ne_of_isLetter hc (by decide)) (ne_of_isLetter hc (by decide)) _
    | succ n => exact atMarker_cons (by decide) (by decide) _

theorem nextLine_linesFrom (hnames : ∀ f ∈ fs, IsName f.1.toList)
    (htail : Plain.NextLine valueIndent 0 tail) :
    Plain.NextLine valueIndent (marginOf fs) (linesFrom tail fs) := by
  cases fs with
  | nil => exact htail
  | cons f fs =>
    have hmargin : fieldMargin < valueIndent := by decide
    exact nextLine_of_isName (hnames f List.mem_cons_self) _ hmargin

theorem yields_field (hname : IsName f.1.toList) (hopened : opened fieldMargin columns = [2, 0])
    (hstays : ∀ n ∈ columns, n ≤ fieldMargin) (hline : Plain.NextLine valueIndent margin body)
    (hat : Begins p allowed fieldMargin (f.1.toList ++ ':' ::
      (f.2.written (fieldMargin + f.1.length + 1) ++ '\n' :: (List.replicate margin ' ' ++ body))))
    (h : ∀ q allowed, Begins q allowed margin body →
      (block q [2, 0] none allowed
        ((fieldTokens f).reverse ++ (opening fieldMargin columns ++ tokens))).Yields ts) :
    (block p columns none allowed tokens).Yields ts := by
  refine yields_key hname (FieldValue.head_written f.2 _ _) hat hstays fun q hrest hcolumn => ?_
  rw [hopened]
  refine FieldValue.readsAs_written f.2 _ q _ _ _ margin body hrest rfl (fun n hn => ?_) hline h
  have htwo : ∀ n ∈ [2, 0], n ≤ fieldMargin := by decide
  exact Nat.le_trans (htwo n hn) (Nat.le_of_lt hcolumn)

theorem yields_fields (hnames : ∀ f ∈ fs, IsName f.1.toList) (htail : Plain.NextLine valueIndent 0 tail)
    (hat : Begins p allowed (marginOf fs) (linesFrom tail fs))
    (h : ∀ q allowed, Begins q allowed 0 tail →
      (block q [2, 0] none allowed ((fs.flatMap fieldTokens).reverse ++ tokens)).Yields ts) :
    (block p [2, 0] none allowed tokens).Yields ts := by
  induction fs generalizing p allowed tokens with
  | nil => exact h p allowed hat
  | cons f fs ih =>
    have hrest : ∀ f ∈ fs, IsName f.1.toList := fun g hg => hnames g (List.mem_cons_of_mem f hg)
    refine yields_field (hnames f List.mem_cons_self) rfl (by decide) (nextLine_linesFrom hrest htail)
      hat fun q allowed hq => ih hrest hq fun r allowed hr => ?_
    have hlast := h r allowed hr
    rwa [List.flatMap_cons, List.reverse_append, List.append_assoc] at hlast

/-! ## Entries -/

def entryTokens (fs : List Field) : List Token :=
  .blockEntry :: .blockMappingStart :: (fs.flatMap fieldTokens ++ [.blockEnd])

def entriesText : List (List Field) → List Char
  | [] => []
  | fs :: entries => '-' :: ' ' :: linesFrom (entriesText entries) fs

theorem nextLine_entriesText (entries : List (List Field)) :
    Plain.NextLine valueIndent 0 (entriesText entries) := by
  cases entries with
  | nil => exact ⟨nofun, rfl⟩
  | cons fs entries =>
    refine ⟨fun c hc => ?_, rfl⟩
    obtain rfl : '-' = c := Option.some.inj hc
    decide

/-- The field after a dash. -/
theorem begins_of_dash (hname : IsName f.1.toList) {q : Cursor} {cs : List Char}
    (hrest : q.rest = ' ' :: (f.1.toList ++ cs)) (hcolumn : q.column = 1) :
    Begins q true fieldMargin (f.1.toList ++ cs) := by
  obtain ⟨c, ds, hds⟩ := List.exists_cons_of_ne_nil hname.nonempty
  have hc : isLetter c = true := hname.letters c (hds ▸ List.mem_cons_self)
  have hline := Cursor.moveTo_of_char hrest (by decide) (by decide)
  refine ⟨?_, ⟨false, ?_, rfl⟩, ?_, ?_, ?_⟩
  · rw [hrest]
    exact fun hmark => absurd (Option.some.inj hmark) (by decide)
  · have hskip := skipGap_spaces 1 (c :: (ds ++ cs))
    rw [skipGap_of_begins (isGap_of_isLetter hc) (ne_of_isLetter hc (by decide))] at hskip
    rw [hrest, hds]
    exact hskip
  · rw [hline]
  · rw [hline, hcolumn]
    rfl
  · rw [hrest]
    exact Nat.le_succ _

theorem yields_entries (tokens : List Token) {entries : List (List Field)}
    (hnames : ∀ fs ∈ entries, fs ≠ [] ∧ ∀ f ∈ fs, IsName f.1.toList)
    (hcolumns : columns = [0] ∨ columns = [2, 0]) (hat : Begins p allowed 0 (entriesText entries)) :
    (block p columns none allowed tokens).Yields
      (tokens.reverse ++ pending columns ++ entries.flatMap entryTokens ++ [.blockEnd, .finish]) := by
  have hdrop : columns.dropWhile (0 < ·) = [0] := by
    obtain rfl | rfl := hcolumns <;> rfl
  have hreverse : (pending columns).reverse = pending columns := by
    obtain rfl | rfl := hcolumns <;> rfl
  -- the mapping of the entry before, if there is one, ends where the dash stands left of it
  induction entries generalizing p allowed columns tokens with
  | nil =>
    have hclosed : columns.map (fun _ => Token.blockEnd) = pending columns ++ [.blockEnd] := by
      obtain rfl | rfl := hcolumns <;> rfl
    have hends : (block p columns none allowed tokens).Yields _ := yields_end hat
    rw [hclosed] at hends
    simpa using hends
  | cons fs entries ih =>
    obtain ⟨hne, hfs⟩ := hnames fs List.mem_cons_self
    obtain ⟨f, fs, rfl⟩ := List.exists_cons_of_ne_nil hne
    have hline := nextLine_entriesText entries
    have htail : ∀ f ∈ fs, IsName f.1.toList := fun g hg => hfs g (List.mem_cons_of_mem f hg)
    have hname := hfs f List.mem_cons_self
    refine yields_entry hat (by rw [hdrop]; rfl) fun q hrest hcolumn => ?_
    rw [hdrop]
    refine yields_field hname rfl (by decide) (nextLine_linesFrom htail hline)
      (begins_of_dash hname hrest hcolumn) fun r allowed hr => ?_
    refine yields_fields htail hline hr fun t allowed ht => ?_
    have hopening : opening fieldMargin [0] = [.blockMappingStart] := rfl
    have hlast := ih ((fs.flatMap fieldTokens).reverse ++ ((fieldTokens f).reverse ++
      (opening fieldMargin [0] ++ (.blockEntry :: (pending columns ++ tokens)))))
      (fun gs hgs => hnames gs (List.mem_cons_of_mem _ hgs)) (.inr rfl) ht rfl rfl
    have hpending : pending [2, 0] = [.blockEnd] := rfl
    rw [hpending, hopening] at hlast
    simpa [entryTokens, hopening, hreverse] using hlast

/-! ## Rulebooks -/

/-- The text of fields of entries, under the key of the rules. -/
def textOf (entries : List (List Field)) : List Char :=
  rulesKey.toList ++ ':' :: '\n' :: entriesText entries

def tokensOf (entries : List (List Field)) : List Token :=
  [.blockMappingStart, .key, .scalar true rulesKey, .value] ++ entries.flatMap entryTokens ++
    [.blockEnd, .finish]

theorem isName_rulesKey : IsName rulesKey.toList :=
  ⟨by decide, List.all_eq_true.mp (by decide), by decide⟩

theorem scan_textOf {entries : List (List Field)}
    (hnames : ∀ fs ∈ entries, fs ≠ [] ∧ ∀ f ∈ fs, IsName f.1.toList) :
    Token.scan ⟨textOf entries, none⟩ = tokensOf entries := by
  have hat : Begins (Cursor.ofText (textOf entries)) true 0 (textOf entries) := by
    have hself : (Cursor.ofText (textOf entries)).moveTo (textOf entries) =
        Cursor.ofText (textOf entries) := Cursor.moveTo_self rfl
    refine ⟨?_, ⟨false, rfl, rfl⟩, ?_, ?_, Nat.le_refl _⟩
    · exact fun hmark => absurd (Option.some.inj hmark) (by decide)
    · rw [hself]
      rfl
    · rw [hself]
      rfl
  have hyields : (block (Cursor.ofText (textOf entries)) [] none true []).Yields (tokensOf entries) := by
    refine yields_key isName_rulesKey rfl hat nofun fun q hrest hcolumn => ?_
    have hline : Begins q false 0 (entriesText entries) :=
      begins_of_lineEnd (nextLine_entriesText entries) hrest
    have hall := yields_entries [.value, .scalar true rulesKey, .key, .blockMappingStart] hnames
      (.inl rfl) hline
    exact hall
  exact hyields _ 0 (Nat.lt_succ_self _)

theorem toList_fieldText (lead : String) (f : Field) : (fieldText lead f).toList =
    lead.toList ++ (f.1.toList ++ ':' :: (f.2.written (lead.length + f.1.length + 1) ++ ['\n'])) := by
  have hcolon : ":".toList = [':'] := rfl
  have hline : "\n".toList = ['\n'] := rfl
  rw [fieldText, String.toList_append, String.toList_append, String.toList_append, String.toList_append,
    hcolon, hline, List.append_assoc, List.append_assoc, List.append_assoc]
  cases f.2 <;> rfl

theorem flatMap_fieldText (fs : List Field) (tail : List Char) :
    fs.flatMap (fun f => (fieldText "  " f).toList) ++ tail =
      List.replicate (marginOf fs) ' ' ++ linesFrom tail fs := by
  have hlead : "  ".toList = List.replicate fieldMargin ' ' := rfl
  have hlength : "  ".length = fieldMargin := rfl
  induction fs with
  | nil => rfl
  | cons f fs ih =>
    rw [List.flatMap_cons, List.append_assoc, ih, toList_fieldText, hlead, hlength, linesFrom]
    simp only [List.append_assoc, List.cons_append, List.nil_append, marginOf]

theorem toList_entryText (d : Descriptor) (tail : List Char) : (entryText d).toList ++ tail =
    '-' :: ' ' :: linesFrom tail d.fields := by
  have hlead : "- ".toList = ['-', ' '] := rfl
  have hlength : "- ".length = fieldMargin := rfl
  have hfields : ∃ f fs, d.fields = f :: fs := ⟨_, _, rfl⟩
  obtain ⟨f, fs, hfs⟩ := hfields
  have hlines := flatMap_fieldText fs tail
  rw [entryText, hfs]
  dsimp only
  rw [String.toList_append, String.toList_join, List.flatMap_map, List.append_assoc, hlines,
    toList_fieldText, hlead, hlength, linesFrom]
  simp only [List.append_assoc, List.cons_append, List.nil_append]

theorem toList_toText (b : Rulebook) : b.toText.toList = textOf (b.descriptors.map Descriptor.fields) := by
  have hentries : ∀ ds : List Descriptor,
      ds.flatMap (fun d => (entryText d).toList) = entriesText (ds.map Descriptor.fields) := by
    intro ds
    induction ds with
    | nil => rfl
    | cons d ds ih =>
      rw [List.flatMap_cons, ih, toList_entryText]
      rfl
  rw [toText, String.toList_append, String.toList_append, String.toList_join, List.flatMap_map,
    hentries, List.append_assoc]
  rfl

theorem isName_of_mem_fields {d : Descriptor} {f : Field} (h : f ∈ d.fields) : IsName f.1.toList := by
  have hall : ∀ name ∈ Descriptor.fieldNames, IsName name.toList := by
    simp only [Descriptor.fieldNames, List.forall_mem_cons]
    refine ⟨?_, ?_, ?_, ?_, ?_, ?_, ?_, fun _ h => absurd h List.not_mem_nil⟩ <;>
      exact ⟨by decide, List.all_eq_true.mp (by decide), by decide⟩
  exact hall f.1 (Descriptor.mem_fieldNames h)

theorem scan_toText (b : Rulebook) :
    Token.scan ⟨b.toText.toList, none⟩ = tokensOf (b.descriptors.map Descriptor.fields) := by
  rw [toList_toText]
  refine scan_textOf fun fs hfs => ?_
  obtain ⟨d, -, rfl⟩ := List.mem_map.mp hfs
  exact ⟨List.cons_ne_nil _ _, fun f hf => isName_of_mem_fields hf⟩

/-! ## The text is clean -/

open Written

theorem clean_of_letters {cs : List Char} (h : ∀ c ∈ cs, isLetter c = true) : Clean cs := by
  intro c hc
  have hletter := h c hc
  refine ⟨?_, ne_of_isLetter hletter (by decide)⟩
  change (c.isUpper || c.isLower || decide (c = '_')) = true at hletter
  rw [Bool.or_eq_true, Bool.or_eq_true, decide_eq_true_eq] at hletter
  have hbounds : 0x20 ≤ c.toNat ∧ c.toNat ≤ 0x7E := by
    obtain (hupper | hlower) | rfl := hletter
    · obtain ⟨hlow, hhigh⟩ : c.val ≥ 'A'.val ∧ c.val ≤ 'Z'.val := of_decide_eq_true hupper
      exact ⟨Nat.le_trans (by decide) (UInt32.le_iff_toNat_le.mp hlow),
        Nat.le_trans (UInt32.le_iff_toNat_le.mp hhigh) (by decide)⟩
    · obtain ⟨hlow, hhigh⟩ := Bool.and_eq_true_iff.mp hlower
      exact ⟨Nat.le_trans (by decide) (UInt32.le_iff_toNat_le.mp (of_decide_eq_true hlow)),
        Nat.le_trans (UInt32.le_iff_toNat_le.mp (of_decide_eq_true hhigh)) (by decide)⟩
    · decide
  exact (Text.inRanges_iff admitted c.toNat).mpr ⟨(0x20, 0x7E), by decide, hbounds⟩

theorem clean_written (v : FieldValue) (column : Nat) : Clean (v.written column) := by
  cases v with
  | text s => exact clean_scalar column s
  | flag b =>
    have hletters : ((if b then "true" else "false").toList).all isLetter = true := by
      cases b <;> decide
    have hword : (FieldValue.flag b).written column = ' ' :: (if b then "true" else "false").toList := by
      cases b <;> rfl
    rw [hword]
    exact clean_cons.mpr ⟨by decide, clean_of_letters (List.all_eq_true.mp hletters)⟩

theorem clean_linesFrom (hnames : ∀ f ∈ fs, IsName f.1.toList) (htail : Clean tail) :
    Clean (linesFrom tail fs) := by
  induction fs with
  | nil => exact htail
  | cons f fs ih =>
    have hrest := ih fun g hg => hnames g (List.mem_cons_of_mem f hg)
    have hname := clean_of_letters (hnames f List.mem_cons_self).letters
    have hline : Clean ('\n' :: (List.replicate (marginOf fs) ' ' ++ linesFrom tail fs)) :=
      clean_cons.mpr ⟨by decide, clean_append.mpr ⟨clean_replicate _, hrest⟩⟩
    exact clean_append.mpr
      ⟨hname, clean_cons.mpr ⟨by decide, clean_append.mpr ⟨clean_written f.2 _, hline⟩⟩⟩

theorem clean_toText (b : Rulebook) : Clean b.toText.toList := by
  have hentries : ∀ ds : List Descriptor, Clean (entriesText (ds.map Descriptor.fields)) := by
    intro ds
    induction ds with
    | nil => exact clean_nil
    | cons d ds ih =>
      exact clean_cons.mpr ⟨by decide, clean_cons.mpr
        ⟨by decide, clean_linesFrom (fun f hf => isName_of_mem_fields hf) ih⟩⟩
  rw [toList_toText]
  exact clean_append.mpr ⟨clean_of_letters isName_rulesKey.letters, clean_cons.mpr
    ⟨by decide, clean_cons.mpr ⟨by decide, hentries b.descriptors⟩⟩⟩

end Rulebook
end SerialAudit
