import SerialAudit.Proofs.Rulebook.Restored
import SerialAudit.Tools

/-! The rules as a resource, and the rules that its text stands for.

* `Descriptor.texts` : the texts of a definition that are free;
* `Rulebook.Whole` : no text of the rules holds half a character;
* `Service.RulesReturn` : a text that stands for the rules.

Rules that are whole return exactly if no text of theirs loses a next-line control between apostrophes
(`rules_return_iff`). Of other rules nothing is said: a half is kept as a character to which nothing is
assigned, and the text shows an escape for it where it would show such a character as it is. -/
namespace SerialAudit
set_option autoImplicit false

open Document

namespace Descriptor

def texts (d : Descriptor) : List String := [d.diagnosticId, d.title, d.messageFormat, d.category]

theorem restored_eq_self_iff (d : Descriptor) : d.restored = d ↔ ∀ t ∈ d.texts, restoredText t = t := by
  obtain ⟨rule, diagnosticId, title, messageFormat, severity, category, enabled⟩ := d
  simp [restored, texts]

theorem hasHalf_toDatum (d : Descriptor) : d.toDatum.hasHalf = d.texts.any Text.hasHalf := by
  have hrule : Text.hasHalf d.rule.name = false := by cases d.rule <;> decide
  have hseverity : Text.hasHalf d.severity.name = false := by cases d.severity <;> decide
  have hnames : ∀ name ∈ fieldNames, Text.hasHalf name = false := by decide
  simp only [fieldNames, List.forall_mem_cons] at hnames
  obtain ⟨h₁, h₂, h₃, h₄, h₅, h₆, h₇, -⟩ := hnames
  simp only [toDatum, Datum.hasHalf, Datum.fieldsHaveHalf, hrule, hseverity, h₁, h₂, h₃, h₄, h₅, h₆, h₇,
    Bool.false_or, Bool.or_false, texts, List.any_cons, List.any_nil]

end Descriptor

namespace Rulebook

theorem restored_eq_self_iff (b : Rulebook) :
    b.restored = b ↔ ∀ d ∈ b.descriptors, ∀ t ∈ d.texts, restoredText t = t := by
  have hmap : b.restored = b ↔ b.descriptors.map Descriptor.restored = b.descriptors :=
    ⟨congrArg Rulebook.descriptors, congrArg Rulebook.mk⟩
  have hid : b.descriptors.map Descriptor.restored = b.descriptors ↔
      ∀ d ∈ b.descriptors, d.restored = d := by
    rw [← List.map_inj_left, List.map_id']
  rw [hmap, hid]
  exact forall₂_congr fun d _ => d.restored_eq_self_iff

/-- The rules as the tool writes them. -/
def answer (ds : List Descriptor) : List (String × Datum) :=
  [(rulesKey, .list (ds.map Descriptor.toDatum))]

def Whole (b : Rulebook) : Prop := ∀ d ∈ b.descriptors, ∀ t ∈ d.texts, Text.hasHalf t = false

instance (b : Rulebook) : Decidable b.Whole :=
  inferInstanceAs (Decidable (∀ d ∈ b.descriptors, ∀ t ∈ d.texts, Text.hasHalf t = false))

theorem Whole.hasHalf_answer {b : Rulebook} (h : b.Whole) :
    (Datum.record (answer b.descriptors)).hasHalf = false := by
  have hkey : Text.hasHalf rulesKey = false := by decide
  have hlist : ∀ ds : List Descriptor, (∀ d ∈ ds, ∀ t ∈ d.texts, Text.hasHalf t = false) →
      Datum.haveHalf (ds.map Descriptor.toDatum) = false := by
    intro ds
    induction ds with
    | nil => exact fun _ => rfl
    | cons d ds ih =>
      intro hall
      have hfirst : d.texts.any Text.hasHalf = false :=
        List.any_eq_false.mpr fun t ht => Bool.eq_false_iff.mp (hall d List.mem_cons_self t ht)
      rw [List.map_cons, Datum.haveHalf, d.hasHalf_toDatum, hfirst, Bool.false_or]
      exact ih fun d' hd' => hall d' (List.mem_cons_of_mem d hd')
  rw [answer, Datum.hasHalf, Datum.fieldsHaveHalf, Datum.hasHalf, hlist _ h, hkey, Datum.fieldsHaveHalf]
  rfl

end Rulebook

namespace Service

variable {s : Service} {folder : Folder} {b : Rulebook}

/-- A text that stands for the rules: its value is what the tool answers, and in a rules file it gives the
same definitions in the same order. -/
structure RulesReturn (s : Service) (folder : Folder) (text : String) : Prop where
  value : ∀ extra fresh, ∃ v fields,
    Value.ofSource (extra + Rulebook.depth) (Source.ofText text.toList) = .ok v ∧
      (Tool.getRules.call s folder fresh).1 = .answer fields ∧ v.toDatum = .record fields
  definitions : ∀ directory, ((Catalog.ofDirectory directory).descriptors (Folder.ofText text)).1 =
    (s.catalog.descriptors folder).1

theorem rulesText_of_load (h : s.catalog.load folder = .ok b) :
    (s.rulesText folder).1 = .ok b.toText :=
  congrArg Prod.fst (Catalog.use_of_load h _)

theorem call_getRules (h : s.catalog.load folder = .ok b) (fresh : String) :
    (Tool.getRules.call s folder fresh).1 =
      if (Datum.record (Rulebook.answer b.descriptors)).hasHalf then .failure
      else .answer (Rulebook.answer b.descriptors) := by
  have hds : s.catalog.descriptors folder = (.ok b.descriptors, { s.catalog with rulebook := some b }) :=
    Catalog.use_of_load h _
  rw [Tool.call, hds]
  rfl

/-- The text of whole rules stands for them if and only if those of their texts that hold a next-line
control also hold something that only an escape can show. -/
theorem rules_return_iff (hkept : s.catalog.Loaded) (h : s.catalog.load folder = .ok b)
    (hwhole : b.Whole) :
    ∃ text, (s.rulesText folder).1 = .ok text ∧ (s.RulesReturn folder text ↔
      ∀ d ∈ b.descriptors, ∀ t ∈ d.texts, '\x85' ∈ t.toList →
        Written.needsEscapes t.toList = true) := by
  obtain ⟨folder', hload⟩ := hkept.exists_load h
  have hcomplete := Rulebook.complete_of_load hload
  have hdistinct := Rulebook.distinct_of_load hload
  have hds := Catalog.descriptors_of_load h
  have hback : ∀ directory, ((Catalog.ofDirectory directory).descriptors (Folder.ofText b.toText)).1 =
      .ok b.restored.descriptors := fun directory =>
    Catalog.descriptors_of_load (k := .ofDirectory directory) (Rulebook.load_toText hcomplete hdistinct)
  -- the text loads in any case, so that all depends on whether the definitions are read back as they are
  refine ⟨b.toText, rulesText_of_load h, ?_⟩
  have hsame : (∀ d ∈ b.descriptors, ∀ t ∈ d.texts, '\x85' ∈ t.toList →
      Written.needsEscapes t.toList = true) ↔ b.restored = b := by
    simp only [← restoredText_eq_self_iff]
    exact b.restored_eq_self_iff.symm
  rw [hsame]
  constructor
  · intro hreturn
    have hdefinitions := hreturn.definitions ""
    rw [hback, hds] at hdefinitions
    exact congrArg Rulebook.mk (Except.ok.inj hdefinitions)
  · intro hrestored
    refine ⟨fun extra fresh => ?_, fun directory => ?_⟩
    · obtain ⟨v, hvalue, -, hdatum⟩ := Rulebook.ofSource_toText hcomplete.descriptors_ne_nil extra
      rw [hrestored] at hdatum
      refine ⟨v, Rulebook.answer b.descriptors, ?_, ?_, hdatum⟩
      · rw [(Rulebook.source_toText b).1]
        exact hvalue
      · rw [call_getRules h, hwhole.hasHalf_answer]
        rfl
    · rw [hback, hds, hrestored]

/-- Rules that are all alike, with a title. -/
def titledRulebook (title : String) : Rulebook :=
  ⟨Rule.all.map fun rule => ⟨rule, "D", title, "M", .error, "C", true⟩⟩

/-- A next-line control returns where a tab stands beside it. -/
theorem rules_return_of_tab :
    let s : Service := ⟨.ofDirectory "rules", 4⟩
    let b := titledRulebook "a\x85b\t"
    let folder := Folder.ofText b.toText
    s.catalog.Loaded ∧ s.catalog.load folder = .ok b ∧ b.Whole ∧
      ∃ text, (s.rulesText folder).1 = .ok text ∧ s.RulesReturn folder text := by
  intro s b folder
  have hkept : s.catalog.Loaded := .ofDirectory "rules"
  obtain ⟨hcomplete, hdistinct⟩ : b.Complete ∧ b.Distinct :=
    Rulebook.complete_and_distinct_of_map_all fun _ => rfl
  have hrestored : b.restored = b := by decide +kernel
  have hload : s.catalog.load folder = .ok b := by
    have hagain := Rulebook.load_toText hcomplete hdistinct
    rwa [hrestored] at hagain
  have hwhole : b.Whole := by decide +kernel
  obtain ⟨text, htext, hiff⟩ := rules_return_iff hkept hload hwhole
  refine ⟨hkept, hload, hwhole, text, htext, hiff.mpr ?_⟩
  decide +kernel

/-- The file of such rules, with the title as it stands there. -/
def titledRules (title : String) : Folder := .ofText
  ("rules:\n- &d \x7brule: missing_annotation, diagnostic_id: D, title: " ++ title ++
    ", message_format: M, category: C\x7d\n- \x7b<<: *d, rule: missing_field\x7d\n" ++
    "- \x7b<<: *d, rule: invalid_field\x7d\n- \x7b<<: *d, rule: duplicate_version\x7d\n")

/-- A lone next-line control comes back as a space. -/
theorem next_line_does_not_return :
    let s : Service := ⟨.ofDirectory "rules", 4⟩
    let folder := titledRules "\"a\\Nb\""
    ∃ text, (s.rulesText folder).1 = .ok text ∧
      (s.catalog.descriptors folder).1 = .ok (titledRulebook "a\x85b").descriptors ∧
      ((Catalog.ofDirectory "rules").descriptors (Folder.ofText text)).1 =
        .ok (titledRulebook "a b").descriptors ∧
      ¬ s.RulesReturn folder text := by
  intro s folder
  have hload : Rulebook.load folder = .ok (titledRulebook "a\x85b") := by decide +kernel
  have hkept : s.catalog.load folder = .ok (titledRulebook "a\x85b") := hload
  have hback : Rulebook.load (Folder.ofText (titledRulebook "a\x85b").toText) =
      .ok (titledRulebook "a\x85b").restored :=
    Rulebook.load_toText (Rulebook.complete_of_load hload) (Rulebook.distinct_of_load hload)
  have hrestored : (titledRulebook "a\x85b").restored = titledRulebook "a b" := by decide +kernel
  rw [hrestored] at hback
  have hagain : (Catalog.ofDirectory "rules").load (Folder.ofText (titledRulebook "a\x85b").toText) =
      .ok (titledRulebook "a b") := hback
  have hds := Catalog.descriptors_of_load hkept
  have hds' := Catalog.descriptors_of_load hagain
  refine ⟨_, rulesText_of_load hkept, hds, hds', fun hreturn => ?_⟩
  have hsame := hreturn.definitions "rules"
  have hne : (titledRulebook "a b").descriptors ≠ (titledRulebook "a\x85b").descriptors := by decide
  exact hne (Except.ok.inj (hds'.symm.trans (hsame.trans hds)))

end Service
end SerialAudit
