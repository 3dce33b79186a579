import SerialAudit.Proofs.Audit.Verdict
import SerialAudit.Proofs.Service.Atomicity
import SerialAudit.Proofs.Template.Growth

/-! Which catalogs can word everything that a check finds.

* `Rule.fields` : the fields that a diagnostic of a rule may name, if it names one.

Loading reads messages as mere texts, so rules may be loaded whose messages are no templates. Every
diagnostic of a rule and a field of it is found by some check (`exists_check_of_mem_fields`), hence a
catalog that has loaded words all that is found exactly if the message of every enabled rule has a text
for all class names (`words_every_finding_iff`). The empty class name is the hardest one, where no layout
depends on it. -/
namespace SerialAudit
set_option autoImplicit false

/-! ## What checks find -/

def Rule.fields : Rule → List (Option String)
  | missingAttribute | duplicateVersion => [none]
  | missingField | invalidField => [some "id", some "version"]

namespace Candidate

theorem exists_check_of_fails {arguments : List (String × Argument)} {rule : Rule} {field : String}
    (name : String) (h : Attribute.Fails ⟨"SerializedIdAttribute", arguments⟩ rule field) :
    ∃ c r, ⟨rule, name, some field⟩ ∈ (check c r).diagnostics := by
  refine ⟨ofArguments name arguments, .empty, ?_⟩
  rw [check_of_settled (.failed (scoped_ofArguments name arguments)
    (carries_ofArguments name arguments) h)]
  exact List.mem_singleton_self _

end Candidate

theorem fieldName_mem_of_mem_check {c : Candidate} {r : Registry} {d : Diagnostic}
    (hd : d ∈ (check c r).diagnostics) : d.fieldName ∈ d.rule.fields := by
  generalize hds : (check c r).diagnostics = ds at hd
  have hverdict : Verdict r.Holds c ds := (verdict_iff_check c r ds).mpr hds
  cases hverdict with
  | settled hsettled =>
    cases hsettled with
    | outOfScope hscope => exact absurd hd List.not_mem_nil
    | unannotated hscope hnone =>
      obtain rfl := List.mem_singleton.mp hd
      exact List.mem_singleton_self _
    | failed hscope hcarries hfails =>
      obtain rfl := List.mem_singleton.mp hd
      cases hfails <;> simp [Rule.fields]
  | taken hnames hp =>
    obtain rfl := List.mem_singleton.mp hd
    exact List.mem_singleton_self _
  | free hnames hp => exact absurd hd List.not_mem_nil

/-- Checks find every rule with every field of it, about classes of every name. -/
theorem exists_check_of_mem_fields {rule : Rule} {field : Option String} (h : field ∈ rule.fields)
    (name : String) : ∃ c r, ⟨rule, name, field⟩ ∈ (check c r).diagnostics := by
  cases rule with
  | missingAttribute =>
    obtain rfl := List.mem_singleton.mp h
    refine ⟨.ofName name, .empty, ?_⟩
    rw [check_of_settled (.unannotated ⟨rfl, rfl, List.mem_singleton_self _⟩
      fun a ha => absurd ha List.not_mem_nil)]
    exact List.mem_singleton_self _
  | missingField =>
    simp only [Rule.fields, List.mem_cons, List.not_mem_nil, or_false] at h
    obtain rfl | rfl := h
    · exact Candidate.exists_check_of_fails name (.idAbsent (a := ⟨_, []⟩) rfl)
    · exact Candidate.exists_check_of_fails name
        (.versionAbsent (a := ⟨_, [("id", .text "x")]⟩) rfl (.text "x") (by decide) rfl)
  | invalidField =>
    simp only [Rule.fields, List.mem_cons, List.not_mem_nil, or_false] at h
    obtain rfl | rfl := h
    · exact Candidate.exists_check_of_fails name
        (.idInvalid (a := ⟨_, [("id", .missing)]⟩) rfl fun s hs => by cases hs)
    · exact Candidate.exists_check_of_fails name
        (.versionInvalid (a := ⟨_, [("id", .text "x"), ("version", .missing)]⟩) rfl (.text "x")
          (by decide) rfl fun n hn => by cases hn)
  | duplicateVersion =>
    obtain rfl := List.mem_singleton.mp h
    have hnames : (Candidate.ofPair name "x" 0).Names ("x", 0) :=
      ⟨⟨rfl, rfl, List.mem_singleton_self _⟩, _, ⟨rfl, [], [], rfl, fun b hb => absurd hb List.not_mem_nil⟩,
        ⟨_, rfl, .text "x"⟩, by decide, rfl, Int.le_refl 0⟩
    refine ⟨.ofPair name "x" 0, (Registry.empty.register "x" 0).2, ?_⟩
    rw [check_of_names hnames, if_pos ((Registry.holds_register _ ("x", 0) _).mpr (Or.inl rfl))]
    exact List.mem_singleton_self _

/-! ## Catalogs that have loaded -/

namespace Rulebook

theorem exists_format_iff {b : Rulebook} {d : Diagnostic} {e : Descriptor}
    (he : b.describe? d.rule.name = some e) (location : Option String) :
    (∃ reported, b.format d location = .ok reported) ↔
      (e.enabled = true → Template.Renders (names d) e.messageFormat) := by
  rw [format_of_describe? he, Template.Renders]
  cases e.enabled with
  | false => simp
  | true => cases Template.render (names d) e.messageFormat <;> simp

theorem lookup_names {n : String} (hn : n ≠ "class_name") (rule : Rule) (field : Option String)
    (className className' : String) :
    (names ⟨rule, className, field⟩).lookup n = (names ⟨rule, className', field⟩).lookup n := by
  simp only [names, List.lookup_cons, beq_eq_false_iff_ne.mpr hn]

theorem grow_names (rule : Rule) (className : String) (field : Option String) :
    (names ⟨rule, "", field⟩).Grow (names ⟨rule, className, field⟩) := by
  intro n s hs
  by_cases hn : n = "class_name"
  · subst hn
    obtain rfl : "" = s := Option.some.inj hs
    exact ⟨className, rfl, Nat.zero_le _⟩
  · rw [lookup_names hn rule field "" className] at hs
    exact ⟨s, hs, Nat.le_refl _⟩

end Rulebook

namespace Catalog

/-- After a load everything that any check finds is worded exactly if the message of every enabled rule
has a text for all class names and all fields of the rule. Unless a layout depends on the class name,
the empty one decides for all. -/
theorem words_every_finding_iff {k : Catalog} (hk : k.Loaded) {folder : Folder}
    {ds : List Descriptor} (h : (k.descriptors folder).1 = .ok ds) :
    ((∀ (c : Candidate) (r : Registry), ∀ d ∈ (check c r).diagnostics, ∀ folder' location,
        ∃ reported, ((k.descriptors folder).2.format folder' d location).1 = .ok reported) ↔
      ∀ e ∈ ds, e.enabled = true → ∀ field ∈ e.rule.fields, ∀ className,
        Template.Renders (Rulebook.names ⟨e.rule, className, field⟩) e.messageFormat) ∧
    ∀ e ∈ ds, Template.Steady "class_name" e.messageFormat → ∀ field,
      ((∀ className, Template.Renders (Rulebook.names ⟨e.rule, className, field⟩) e.messageFormat) ↔
        Template.Renders (Rulebook.names ⟨e.rule, "", field⟩) e.messageFormat) := by
  obtain ⟨b, hload, rfl, hkept⟩ := exists_load_of_descriptors h
  obtain ⟨folder₀, hb⟩ := hk.exists_load hload
  have hformat : ∀ folder' d location,
      ((k.descriptors folder).2.format folder' d location).1 = b.format d location := by
    intro folder' d location
    rw [hkept, format, use_of_rulebook _ b rfl]
  simp only [hformat]
  refine ⟨⟨fun hall e he henabled field hfield className => ?_, fun hall c r d hd _ location => ?_⟩,
    fun e he hsteady field => ⟨fun hall => hall "", fun hempty className => ?_⟩⟩
  · obtain ⟨c, r, hd⟩ := exists_check_of_mem_fields hfield className
    have hdescribe : b.describe? e.rule.name = some e := (Rulebook.distinct_of_load hb).describe? he
    exact (Rulebook.exists_format_iff (d := ⟨e.rule, className, field⟩) hdescribe none).mp
      (hall c r _ hd folder none) henabled
  · obtain ⟨e, he⟩ := (Rulebook.complete_of_load hb).exists_describe? d.rule
    have hrule : e.rule = d.rule := Rulebook.rule_of_describe? he
    refine (Rulebook.exists_format_iff he location).mpr fun henabled => ?_
    have hfield : d.fieldName ∈ e.rule.fields := hrule ▸ fieldName_mem_of_mem_check hd
    exact hall e (List.mem_of_find?_eq_some he) henabled d.fieldName hfield d.className
  · exact hempty.grow (Rulebook.grow_names e.rule className field)
      (fun n hn => Rulebook.lookup_names hn e.rule field "" className) hsteady

/-- Rules whose messages are the name of the class, with the name of the field after it. -/
def namedRules : Folder := .ofText
  ("rules:\n- &d \x7brule: missing_annotation, diagnostic_id: D, title: T, " ++
    "message_format: '\x7bclass_name\x7d \x7bfield_name\x7d', category: C\x7d\n" ++
    "- \x7b<<: *d, rule: missing_field\x7d\n- \x7b<<: *d, rule: invalid_field\x7d\n" ++
    "- \x7b<<: *d, rule: duplicate_version\x7d\n")

def namedDescriptors : List Descriptor :=
  Rule.all.map fun rule => ⟨rule, "D", "T", "\x7bclass_name\x7d \x7bfield_name\x7d", .error, "C", true⟩

theorem load_namedRules : Rulebook.load namedRules = .ok ⟨namedDescriptors⟩ := by
  decide +kernel

/-- Messages of both names have a text for the empty class name, and so for every other one. -/
theorem words_every_finding_of_namedRules :
    let k := ofDirectory "rules"
    k.Loaded ∧ (k.descriptors namedRules).1 = .ok namedDescriptors ∧
      ∀ (c : Candidate) (r : Registry), ∀ d ∈ (check c r).diagnostics, ∀ folder' location,
        ∃ reported, ((k.descriptors namedRules).2.format folder' d location).1 = .ok reported := by
  intro k
  have hk : k.Loaded := .ofDirectory "rules"
  have hload : k.load namedRules = .ok ⟨namedDescriptors⟩ := load_namedRules
  have hds : (k.descriptors namedRules).1 = .ok namedDescriptors := descriptors_of_load hload
  have hmessage : ∀ e ∈ namedDescriptors,
      e.messageFormat = "\x7bclass_name\x7d \x7bfield_name\x7d" := by decide
  have hsteady : ∀ e ∈ namedDescriptors, Template.Steady "class_name" e.messageFormat := by
    intro e he h hh hnested
    have hpieces : ∀ p ∈ Template.pieces .plain "\x7bclass_name\x7d \x7bfield_name\x7d".toList,
        ∀ h, p = .hole h → h.nested = false := by
      have hlist : Template.pieces .plain "\x7bclass_name\x7d \x7bfield_name\x7d".toList =
          [.hole ⟨"class_name".toList, none, [], false⟩, .char ' ',
            .hole ⟨"field_name".toList, none, [], false⟩] := by decide +kernel
      rw [hlist]
      rintro p hp h rfl
      simp only [List.mem_cons, List.not_mem_nil, or_false, Template.Piece.hole.injEq, reduceCtorEq,
        false_or] at hp
      obtain rfl | rfl := hp <;> rfl
    rw [hmessage e he] at hh
    exact absurd (hpieces _ hh h rfl) (by rw [hnested]; decide)
  refine ⟨hk, hds, (words_every_finding_iff hk hds).1.mpr fun e he _ field hfield => ?_⟩
  refine ((words_every_finding_iff hk hds).2 e he (hsteady e he) field).mpr ?_
  rw [hmessage e he]
  have hfields : ∀ rule : Rule, ∀ field ∈ rule.fields, field ∈ [none, some "id", some "version"] := by
    intro rule
    cases rule <;> decide
  have hrenders : ∀ field ∈ [none, some "id", some "version"],
      ∃ text, Template.render [("class_name", ""), ("field_name", field.getD "")]
        "\x7bclass_name\x7d \x7bfield_name\x7d" = .ok text := by
    intro field hfield
    simp only [List.mem_cons, List.not_mem_nil, or_false] at hfield
    obtain rfl | rfl | rfl := hfield
    · exact ⟨" ", by decide +kernel⟩
    · exact ⟨" id", by decide +kernel⟩
    · exact ⟨" version", by decide +kernel⟩
  exact hrenders field (hfields e.rule field hfield)

/-- An opening brace loads as a message, and no diagnostic can be worded with it. -/
theorem openBraceRules_word_nothing :
    let k := ofDirectory "rules"
    let d : Diagnostic := ⟨.missingAttribute, "B", none⟩
    (k.descriptors Service.openBraceRules).1 = .ok Service.openBraceRulebook.descriptors ∧
      d ∈ (check (.ofName "B") .empty).diagnostics ∧
      (k.format Service.openBraceRules d none).1 = .error (.wording .malformed) := by
  intro k d
  have hload : k.load Service.openBraceRules = .ok Service.openBraceRulebook :=
    Service.load_openBraceRules
  have hformat : Service.openBraceRulebook.format d none = .error (.wording .malformed) := by
    decide +kernel
  exact ⟨descriptors_of_load hload, by decide +kernel,
    (congrArg Prod.fst (use_of_load hload _)).trans hformat⟩

end Catalog

end SerialAudit
