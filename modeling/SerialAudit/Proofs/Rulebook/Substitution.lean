import SerialAudit.Proofs.Rulebook.Rendering
import SerialAudit.Proofs.Rulebook.Restored
import SerialAudit.Template.Written

/-! Messages made of literal texts and names.

* `Template.Hole.ofName` : a hole with nothing but a name in it;
* `Template.IsNameChar` : the characters that neither end a name nor stand in brackets;
* `Template.Segment.pieces` : the pieces that a written segment is read as.

A written segment is read back as itself, whatever stands after it (`pieces_written`): a doubled brace is
never taken for the brace of a hole beside it. So a template of segments has a text for all names, in which
these stand as they are (`render_template`), and that is the message (`message_is_text_of_segments`). -/
namespace SerialAudit
set_option autoImplicit false

namespace Template

/-! ## Reading segments -/

def Hole.ofName (name : List Char) : Hole := ⟨name, none, [], false⟩

def IsNameChar (c : Char) : Prop := c ≠ '{' ∧ c ≠ '[' ∧ c ≠ '}' ∧ c ≠ ':' ∧ c ≠ '!'

namespace Segment

def pieces : Segment → List Piece
  | literal text => text.map .char
  | className => [.hole (.ofName "class_name".toList)]
  | fieldName => [.hole (.ofName "field_name".toList)]

end Segment

theorem pieces_cons {m m' : Mode} {c : Char} {ps : List Piece} (h : step m c = some (m', ps))
    (cs : List Char) : pieces m (c :: cs) = ps ++ pieces m' cs := by
  cases m <;> simp only [pieces, h]

theorem pieces_writtenChar (c : Char) (rest : List Char) :
    pieces .plain (Segment.writtenChar c ++ rest) = .char c :: pieces .plain rest := by
  by_cases hopen : c = '{'
  · subst hopen
    rfl
  by_cases hclose : c = '}'
  · subst hclose
    rfl
  have hchar : Segment.writtenChar c = [c] := if_neg (not_or.mpr ⟨hopen, hclose⟩)
  have hstep : step .plain c = some (.plain, [.char c]) := by
    simp only [step, hopen, hclose, if_false]
  rw [hchar, List.singleton_append, pieces_cons hstep]
  rfl

theorem nameStep_eq {c : Char} (h : IsNameChar c) (read : List Char) :
    nameStep read c = some (.name (c :: read), none) := by
  obtain ⟨hopen, hbracket, hclose, hcolon, hmark⟩ := h
  simp only [nameStep, hopen, hbracket, hclose, hcolon, hmark, if_false]

/-- The rest of a name, up to the brace that ends its hole. -/
theorem pieces_name {name : List Char} (h : ∀ c ∈ name, IsNameChar c) (read rest : List Char) :
    pieces (.name read) (name ++ '}' :: rest) =
      .hole (.ofName (read.reverse ++ name)) :: pieces .plain rest := by
  induction name generalizing read with
  | nil =>
    rw [List.append_nil]
    rfl
  | cons c name ih =>
    obtain ⟨hc, hname⟩ := List.forall_mem_cons.mp h
    have hstep : step (.name read) c = some (.name (c :: read), []) := by
      rw [step, nameStep_eq hc]
      rfl
    rw [List.cons_append, pieces_cons hstep, List.nil_append, ih hname, List.reverse_cons,
      List.append_assoc, List.singleton_append]

/-- A hole begins with a character of its name: a second brace there would be the doubled one. -/
theorem pieces_hole {name : List Char} (hne : name ≠ []) (h : ∀ c ∈ name, IsNameChar c)
    (rest : List Char) :
    pieces .plain ('{' :: name ++ ['}'] ++ rest) = .hole (.ofName name) :: pieces .plain rest := by
  obtain ⟨c, name, rfl⟩ := List.exists_cons_of_ne_nil hne
  obtain ⟨hc, hname⟩ := List.forall_mem_cons.mp h
  have hopen : step .plain '{' = some (.afterOpen, []) := rfl
  have hstep : step .afterOpen c = some (.name [c], []) := by
    rw [step, if_neg hc.1, nameStep_eq hc]
    rfl
  have hwritten : '{' :: (c :: name) ++ ['}'] ++ rest = '{' :: c :: (name ++ '}' :: rest) := by simp
  rw [hwritten, pieces_cons hopen, pieces_cons hstep, pieces_name hname]
  rfl

theorem pieces_written (s : Segment) (rest : List Char) :
    pieces .plain (s.written ++ rest) = s.pieces ++ pieces .plain rest := by
  cases s with
  | literal text =>
    induction text with
    | nil => rfl
    | cons c text ih =>
      have hwritten : (Segment.literal (c :: text)).written =
          Segment.writtenChar c ++ (Segment.literal text).written := List.flatMap_cons
      rw [hwritten, List.append_assoc, pieces_writtenChar, ih]
      rfl
  | className => exact pieces_hole (by simp) (by simp [IsNameChar]) rest
  | fieldName => exact pieces_hole (by simp) (by simp [IsNameChar]) rest

theorem pieces_flatMap_written (segments : List Segment) :
    pieces .plain (segments.flatMap Segment.written) = segments.flatMap Segment.pieces := by
  induction segments with
  | nil => rfl
  | cons s segments ih => rw [List.flatMap_cons, List.flatMap_cons, pieces_written, ih]

/-! ## Filling in segments -/

variable {names : Names} {className fieldName : String} {expand : List Char → Except Fault (List Char)}

theorem Hole.fill_ofName {name : String} {s : String} (hhead : head name.toList = .named name)
    (hsteps : steps name.toList = []) (hs : names.lookup name = some s) :
    (Hole.ofName name.toList).fill names expand = .ok s.toList := by
  have hfound : lookUp names name.toList = .ok (.text s) := by
    rw [lookUp, hhead, hsteps]
    simp only [hs]
    rfl
  rw [Hole.fill, Hole.ofName, hfound]
  rfl

theorem fillAll_hole {h : Hole} {t : List Char} (ht : h.fill names expand = .ok t) (ps : List Piece) :
    fillAll names expand (.hole h :: ps) = (fillAll names expand ps).map (t ++ ·) := by
  rw [fillAll, ht]
  cases fillAll names expand ps <;> rfl

theorem fillAll_chars (text : List Char) (ps : List Piece) :
    fillAll names expand (text.map .char ++ ps) = (fillAll names expand ps).map (text ++ ·) := by
  induction text with
  | nil => cases h : fillAll names expand ps <;> simp [h, Except.map]
  | cons c text ih =>
    rw [List.map_cons, List.cons_append, fillAll, ih]
    cases fillAll names expand ps <;> rfl

theorem fillAll_pieces (hclass : names.lookup "class_name" = some className)
    (hfield : names.lookup "field_name" = some fieldName) (s : Segment) (ps : List Piece) :
    fillAll names expand (s.pieces ++ ps) =
      (fillAll names expand ps).map (s.text className fieldName ++ ·) := by
  cases s with
  | literal text => exact fillAll_chars text ps
  | className => exact fillAll_hole (Hole.fill_ofName (by decide +kernel) (by decide +kernel) hclass) ps
  | fieldName => exact fillAll_hole (Hole.fill_ofName (by decide +kernel) (by decide +kernel) hfield) ps

/-- The text of a template of segments: the names stand in it as they are. -/
theorem render_template (hclass : names.lookup "class_name" = some className)
    (hfield : names.lookup "field_name" = some fieldName) (segments : List Segment) :
    render names (Segment.template segments) =
      .ok (String.ofList (segments.flatMap (Segment.text className fieldName))) := by
  have hfill : ∀ expand, fillAll names expand (segments.flatMap Segment.pieces) =
      .ok (segments.flatMap (Segment.text className fieldName)) := by
    intro expand
    induction segments with
    | nil => rfl
    | cons s segments ih =>
      rw [List.flatMap_cons, fillAll_pieces hclass hfield, ih]
      rfl
  rw [render, Segment.template, String.toList_ofList, renderTo, pieces_flatMap_written, hfill]
  rfl

end Template

/-! ## Messages -/

namespace Catalog

/-- An enabled rule whose message is written from segments words every diagnostic, and its text is that of
the segments: the literal texts and the names in order, a name that is missing as nothing. -/
theorem message_is_text_of_segments {k : Catalog} (hk : k.Loaded) {folder : Folder}
    {ds : List Descriptor} (h : (k.descriptors folder).1 = .ok ds) {e : Descriptor} (he : e ∈ ds)
    (henabled : e.enabled = true) {segments : List Template.Segment}
    (hmessage : e.messageFormat = Template.Segment.template segments) (className : String)
    (field location : Option String) :
    (k.format folder ⟨e.rule, className, field⟩ location).1 =
      .ok (some ⟨e.diagnosticId, e.rule, e.severity, e.category,
        String.ofList (segments.flatMap (Template.Segment.text className (field.getD ""))),
        className, field, location⟩) := by
  obtain ⟨b, hload, rfl, -⟩ := exists_load_of_descriptors h
  obtain ⟨folder₀, hb⟩ := hk.exists_load hload
  have hdescribe : b.describe? e.rule.name = some e := (Rulebook.distinct_of_load hb).describe? he
  have hrender : Template.render (Rulebook.names ⟨e.rule, className, field⟩) e.messageFormat =
      .ok (String.ofList (segments.flatMap (Template.Segment.text className (field.getD "")))) :=
    hmessage ▸ Template.render_template rfl rfl segments
  rw [format, use_of_load hload, Rulebook.format_of_describe? hdescribe, if_pos henabled, hrender]

/-- Braces beside holes and at the end of the message, and a class that is named like a hole. -/
theorem message_is_text_of_braces :
    let segments : List Template.Segment :=
      [.literal ['{'], .className, .literal ['}'], .fieldName, .literal ['{', '}']]
    let b : Rulebook :=
      ⟨Rule.all.map fun rule => ⟨rule, "D", "T", Template.Segment.template segments, .error, "C", true⟩⟩
    let k := ofDirectory "rules"
    let folder := Folder.ofText b.toText
    k.Loaded ∧ (k.descriptors folder).1 = .ok b.descriptors ∧
      (∀ e ∈ b.descriptors, e.enabled = true ∧ e.messageFormat = Template.Segment.template segments) ∧
      (k.format folder ⟨.missingField, "{field_name}", some "id"⟩ none).1 =
        .ok (some ⟨"D", .missingField, .error, "C", "{{field_name}}id{}",
          "{field_name}", some "id", none⟩) := by
  intro segments b k folder
  have hk : k.Loaded := .ofDirectory "rules"
  obtain ⟨hcomplete, hdistinct⟩ : b.Complete ∧ b.Distinct :=
    Rulebook.complete_and_distinct_of_map_all fun _ => rfl
  have hrestored : b.restored = b := by decide +kernel
  have hload : k.load folder = .ok b := (Rulebook.load_toText hcomplete hdistinct).trans
    (congrArg Except.ok hrestored)
  have hds : (k.descriptors folder).1 = .ok b.descriptors := descriptors_of_load hload
  have hall : ∀ e ∈ b.descriptors,
      e.enabled = true ∧ e.messageFormat = Template.Segment.template segments := by
    intro e he
    obtain ⟨rule, -, rfl⟩ := List.mem_map.mp he
    exact ⟨rfl, rfl⟩
  let e : Descriptor :=
    ⟨.missingField, "D", "T", Template.Segment.template segments, .error, "C", true⟩
  have he : e ∈ b.descriptors := List.mem_map_of_mem (Rule.mem_all .missingField)
  have hformat := message_is_text_of_segments hk hds he (hall e he).1 (hall e he).2 "{field_name}"
    (some "id") none
  have htext : String.ofList (segments.flatMap (Template.Segment.text "{field_name}" "id")) =
      "{{field_name}}id{}" := by decide +kernel
  exact ⟨hk, hds, hall, hformat.trans (by rw [← htext]; rfl)⟩

end Catalog

end SerialAudit
