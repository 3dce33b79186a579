import Mathlib.Data.List.Forall2
import Mathlib.Data.List.Sublists
import SerialAudit.Proofs.Rulebook.Unreported

/-! What a list of definitions is loaded as, and what is said where it is not loaded.

* `Folder.Lists` : the rules file is a mapping with a list under the key of the rules;
* `Rulebook.Defines` : an entry of the list is a definition;
* `Rulebook.LastOf`, `Rulebook.Merges` : the last definition of its rule, and a list of such ones in the order
  in which their rules occur first;
* `Rulebook.FirstInvalid` : what is wrong with the first entry that is no definition;
* `Rulebook.Complaint` : the fault of the entries, and the message about it.

The entries are read up to the first that is no definition (`readEntries_eq_ok_iff`,
`readEntries_eq_error_iff`), and definitions that are put in one after the other keep the first place and the
last content of each rule (`merges_lastOfEach`). Together that says what every list of entries comes to
(`list_of_rules_is_loaded_exactly`). -/
namespace SerialAudit
set_option autoImplicit false

open Document (Value)

/-! ## Lists in rules files -/

/-- The list under a key of a mapping. -/
def Document.Value.listUnder? (name : String) : Value → Option (List Value)
  | map entries =>
    match lookUp? name entries with
    | some (list items) => some items
    | _ => none
  | _ => none

theorem Document.Value.listUnder?_eq_some_iff (v : Value) (name : String) (items : List Value) :
    v.listUnder? name = some items ↔ ∃ entries, v = map entries ∧ Under entries name (list items) := by
  cases v with
  | map entries =>
    have hunder := lookUp?_eq_some_iff name entries (list items)
    rw [listUnder?]
    constructor
    · intro h
      split at h
      · rename_i found hfound
        obtain rfl := Option.some.inj h
        exact ⟨entries, rfl, hunder.mp hfound⟩
      · cases h
    · rintro ⟨entries', he, h⟩
      obtain rfl := map.inj he
      rw [hunder.mpr h]
  | _ => simp [listUnder?]

namespace Folder

def Lists (folder : Folder) (items : List Value) : Prop :=
  ∃ octets entries, folder = .file octets ∧
    Value.ofSource Rulebook.depth (.ofOctets octets) = .ok (.map entries) ∧
    Value.Under entries "rules" (.list items)

theorem lists_file {octets : List UInt8} {items : List Value}
    (h : (Value.ofSource Rulebook.depth (.ofOctets octets)).toOption.bind
      (Value.listUnder? "rules") = some items) : (file octets).Lists items := by
  obtain ⟨v, hvalue, hlist⟩ := Option.bind_eq_some_iff.mp h
  obtain ⟨entries, rfl, hunder⟩ := (v.listUnder?_eq_some_iff _ _).mp hlist
  refine ⟨octets, entries, rfl, ?_, hunder⟩
  cases hsource : Value.ofSource Rulebook.depth (.ofOctets octets) with
  | error fault =>
    rw [hsource] at hvalue
    cases hvalue
  | ok v =>
    rw [hsource] at hvalue
    exact congrArg Except.ok (Option.some.inj hvalue)

end Folder

namespace Rulebook

variable {items : List Value} {ds es : List Descriptor}

theorem load_of_lists {folder : Folder} (h : folder.Lists items) :
    load folder = ofEntries (items.map Value.toDatum) := by
  obtain ⟨octets, entries, rfl, hvalue, hunder⟩ := h
  have hentries : rulesEntries (.map entries) = .ok (items.map Value.toDatum) := by
    have hrules : Value.lookUp? rulesKey entries = some (.list items) :=
      (Value.lookUp?_eq_some_iff _ _ _).mpr hunder
    rw [Value.rulesEntries_map, hrules]
    rfl
  change ofSource (.ofOctets octets) = _
  rw [ofSource, hvalue]
  change (rulesEntries (.map entries)).bind ofEntries = _
  rw [hentries]
  rfl

/-! ## Entries -/

def Defines (item : Value) (d : Descriptor) : Prop := Descriptor.read item.toDatum = .ok d

inductive FirstInvalid : List Value → List Issue → Prop
  | here {item : Value} {items : List Value} {issues : List Issue}
    (h : Descriptor.read item.toDatum = .bad issues) : FirstInvalid (item :: items) issues
  | later {item : Value} {items : List Value} {issues : List Issue} {d : Descriptor}
    (h : Defines item d) (hrest : FirstInvalid items issues) : FirstInvalid (item :: items) issues

theorem readEntries_cons_of_defines {item : Value} {d : Descriptor} (h : Defines item d)
    (rest : List Datum) :
    readEntries (item.toDatum :: rest) = (readEntries rest).map (d :: ·) := by
  rw [readEntries, h]
  cases readEntries rest <;> rfl

theorem readEntries_cons_of_bad {item : Value} {issues : List Issue}
    (h : Descriptor.read item.toDatum = .bad issues) (rest : List Datum) :
    readEntries (item.toDatum :: rest) = .error ⟨"RuleDescriptor", issues⟩ := by
  rw [readEntries, h]
  rfl

theorem readEntries_eq_ok_iff :
    readEntries (items.map Value.toDatum) = .ok ds ↔ List.Forall₂ Defines items ds := by
  induction items generalizing ds with
  | nil =>
    rw [List.forall₂_nil_left_iff]
    exact ⟨fun h => (Except.ok.inj h).symm, fun h => congrArg Except.ok h.symm⟩
  | cons item items ih =>
    rw [List.map_cons, List.forall₂_cons_left_iff]
    cases hread : Descriptor.read item.toDatum with
    | bad issues =>
      rw [readEntries_cons_of_bad hread]
      refine iff_of_false (fun h => by cases h) ?_
      rintro ⟨d, -, hd, -⟩
      cases hread.symm.trans hd
    | ok d =>
      rw [readEntries_cons_of_defines hread]
      constructor
      · intro h
        cases hrest : readEntries (items.map Value.toDatum) with
        | error rejection =>
          rw [hrest] at h
          cases h
        | ok ds' =>
          rw [hrest] at h
          exact ⟨d, ds', hread, ih.mp hrest, (Except.ok.inj h).symm⟩
      · rintro ⟨d', ds', hd, hrest, rfl⟩
        cases hread.symm.trans hd
        rw [ih.mpr hrest]
        rfl

theorem readEntries_eq_error_iff {rejection : Rejection} :
    readEntries (items.map Value.toDatum) = .error rejection ↔
      ∃ issues, FirstInvalid items issues ∧ rejection = ⟨"RuleDescriptor", issues⟩ := by
  induction items with
  | nil =>
    refine iff_of_false (fun h => by cases h) ?_
    rintro ⟨issues, h, -⟩
    cases h
  | cons item items ih =>
    rw [List.map_cons]
    cases hread : Descriptor.read item.toDatum with
    | bad issues =>
      rw [readEntries_cons_of_bad hread]
      constructor
      · intro h
        exact ⟨issues, .here hread, (Except.error.inj h).symm⟩
      · rintro ⟨issues', h, rfl⟩
        cases h with
        | here h =>
          cases hread.symm.trans h
          rfl
        | later h => cases hread.symm.trans h
    | ok d =>
      have hrest : (∃ issues, FirstInvalid (item :: items) issues ∧ rejection = ⟨"RuleDescriptor", issues⟩) ↔
          ∃ issues, FirstInvalid items issues ∧ rejection = ⟨"RuleDescriptor", issues⟩ := by
        refine exists_congr fun issues => and_congr_left fun _ => ⟨fun h => ?_, .later hread⟩
        cases h with
        | here h => cases hread.symm.trans h
        | later _ hrest => exact hrest
      rw [readEntries_cons_of_defines hread, hrest, ← ih]
      cases readEntries (items.map Value.toDatum) <;> simp [Except.map]

/-! ## The last definition of each rule -/

def LastOf (ds : List Descriptor) (e : Descriptor) : Prop :=
  ∃ before after, ds = before ++ e :: after ∧ ∀ d ∈ after, d.rule ≠ e.rule

structure Merges (ds es : List Descriptor) : Prop where
  rules : es.map Descriptor.rule = (ds.map Descriptor.rule).eraseDups
  last : ∀ e ∈ es, LastOf ds e

theorem LastOf.concat {e d : Descriptor} (h : LastOf ds e) (hne : d.rule ≠ e.rule) :
    LastOf (ds ++ [d]) e := by
  obtain ⟨before, after, rfl, hafter⟩ := h
  refine ⟨before, after ++ [d], by simp, fun x hx => ?_⟩
  rcases List.mem_append.mp hx with hx | hx
  · exact hafter x hx
  · exact List.mem_singleton.mp hx ▸ hne

theorem mem_put_self (d : Descriptor) (es : List Descriptor) : d ∈ put d es := by
  induction es with
  | nil => exact List.mem_singleton_self d
  | cons e es ih =>
    rw [put]
    split
    · exact List.mem_cons_self
    · exact List.mem_cons_of_mem e ih

theorem merges_lastOfEach (ds : List Descriptor) : Merges ds (lastOfEach ds) := by
  refine ⟨map_rule_lastOfEach ds, ?_⟩
  induction ds using List.reverseRecOn with
  | nil => exact fun e he => absurd he List.not_mem_nil
  | append_singleton ds d ih =>
    have hdistinct : Distinct ⟨lastOfEach (ds ++ [d])⟩ := distinct_lastOfEach (ds ++ [d])
    rw [lastOfEach_concat] at hdistinct ⊢
    intro e he
    -- the new definition is the only one of its rule, so another one is of a rule that it leaves alone
    by_cases hrule : d.rule = e.rule
    · obtain rfl : d = e := List.inj_on_of_nodup_map hdistinct (mem_put_self d _) he hrule
      exact ⟨ds, [], rfl, fun x hx => absurd hx List.not_mem_nil⟩
    · have hold : e ∈ lastOfEach ds :=
        (mem_put he).resolve_left fun hed => hrule (congrArg Descriptor.rule hed.symm)
      exact (ih e hold).concat hrule

/-! ## Rules that are absent -/

/-- Rules in their order are determined by which ones they are. -/
theorem eq_absentRules {rules : List Rule} (horder : rules.Sublist Rule.all)
    (h : ∀ rule, rule ∈ rules ↔ ∀ d ∈ ds, d.rule ≠ rule) : rules = absentRules ds := by
  have hall : ∀ rules ∈ Rule.all.sublists, Rule.all.filter (· ∈ rules) = rules := by decide
  have hsame : Rule.all.filter (· ∈ rules) = Rule.all.filter (· ∈ absentRules ds) :=
    List.filter_congr fun rule _ =>
      decide_eq_decide.mpr ((h rule).trans (mem_absentRules_iff ds rule).symm)
  rw [← hall rules (List.mem_sublists.mpr horder), hsame]
  exact hall _ (List.mem_sublists.mpr List.filter_sublist)

/-! ## Faults -/

/-- What is wrong with the entries, and the message about it: the first one that is no definition, or else
the rules that none of them is for. -/
inductive Complaint (items : List Value) : LoadFault → String → Prop
  | invalidEntry {issues : List Issue} (h : FirstInvalid items issues) :
    Complaint items (.invalidEntry ⟨"RuleDescriptor", issues⟩)
      ("不正な診断ルール定義です: " ++ Rejection.report ⟨"RuleDescriptor", issues⟩)
  | missingRules {ds : List Descriptor} {rules : List Rule} (hds : List.Forall₂ Defines items ds)
    (hsome : rules ≠ []) (horder : rules.Sublist Rule.all)
    (h : ∀ rule, rule ∈ rules ↔ ∀ d ∈ ds, d.rule ≠ rule) :
    Complaint items (.missingRules rules)
      ("診断ルールの定義が不足しています: " ++ String.intercalate ", " (rules.map Rule.name))

theorem Complaint.message?_eq {fault : LoadFault} {message : String}
    (h : Complaint items fault message) (directory : String) :
    fault.message? directory = some message := by
  cases h <;> rfl

theorem ofEntries_of_readEntries {entries : List Datum} (h : readEntries entries = .ok ds) :
    ofEntries entries =
      if absentRules ds = [] then .ok ⟨lastOfEach ds⟩ else .error (.missingRules (absentRules ds)) := by
  rw [ofEntries, h]
  dsimp only
  cases habsent : absentRules ds <;> simp

theorem ofEntries_eq_ok_iff {b : Rulebook} :
    ofEntries (items.map Value.toDatum) = .ok b ↔
      ∃ ds, List.Forall₂ Defines items ds ∧ Complete ⟨ds⟩ ∧ b = ⟨lastOfEach ds⟩ := by
  simp only [← readEntries_eq_ok_iff, ← absentRules_eq_nil_iff]
  constructor
  · intro h
    cases hread : readEntries (items.map Value.toDatum) with
    | error rejection =>
      rw [ofEntries, hread] at h
      cases h
    | ok ds =>
      rw [ofEntries_of_readEntries hread] at h
      split at h
      · rename_i habsent
        exact ⟨ds, rfl, habsent, (Except.ok.inj h).symm⟩
      · cases h
  · rintro ⟨ds, hread, habsent, rfl⟩
    rw [ofEntries_of_readEntries hread, if_pos habsent]

theorem ofEntries_eq_error_iff {fault : LoadFault} :
    ofEntries (items.map Value.toDatum) = .error fault ↔ ∃ message, Complaint items fault message := by
  constructor
  · intro h
    cases hread : readEntries (items.map Value.toDatum) with
    | error rejection =>
      obtain ⟨issues, hinvalid, rfl⟩ := readEntries_eq_error_iff.mp hread
      rw [ofEntries, hread] at h
      cases h
      exact ⟨_, .invalidEntry hinvalid⟩
    | ok ds =>
      rw [ofEntries_of_readEntries hread] at h
      split at h
      · cases h
      · rename_i habsent
        cases h
        exact ⟨_, .missingRules (readEntries_eq_ok_iff.mp hread) habsent List.filter_sublist
          (mem_absentRules_iff ds)⟩
  · rintro ⟨message, h⟩
    cases h with
    | invalidEntry hinvalid =>
      rw [ofEntries, readEntries_eq_error_iff.mpr ⟨_, hinvalid, rfl⟩]
    | missingRules hds hsome horder h =>
      obtain rfl := eq_absentRules horder h
      rw [ofEntries_of_readEntries (readEntries_eq_ok_iff.mpr hds), if_neg hsome]

/-! ## Rules that are loaded -/

theorem length_of_complete {b : Rulebook} (hcomplete : b.Complete) (hdistinct : b.Distinct) :
    b.descriptors.length = 4 := by
  have hperm : (b.descriptors.map Descriptor.rule).Perm Rule.all :=
    (List.perm_ext_iff_of_nodup hdistinct (by decide)).mpr fun rule =>
      iff_of_true (List.mem_map.mpr (hcomplete rule)) rule.mem_all
  rw [← List.length_map, hperm.length_eq]
  rfl

theorem describe_of_unknown (b : Rulebook) {name : String} (h : ∀ rule : Rule, name ≠ rule.name) :
    b.describe name = .error (.unknownRule name) := by
  have hnone : b.describe? name = none :=
    List.find?_eq_none.mpr fun e _ he => h e.rule (of_decide_eq_true he).symm
  rw [describe, hnone]

theorem Complete.format_ne_unknownRule {b : Rulebook} (hb : b.Complete) (d : Diagnostic)
    (location : Option String) (name : String) : b.format d location ≠ .error (.unknownRule name) := by
  obtain ⟨e, he⟩ := hb.exists_describe? d.rule
  rw [format_of_describe? he]
  split
  · split <;> exact fun h => by cases h
  · exact fun h => by cases h

end Rulebook

namespace Catalog

open Rulebook

variable {folder : Folder} {items : List Value}

theorem descriptors_eq_ok_iff_of_lists (h : folder.Lists items) (directory : String)
    (es : List Descriptor) :
    ((ofDirectory directory).descriptors folder).1 = .ok es ↔
      ∃ ds, List.Forall₂ Defines items ds ∧ Complete ⟨ds⟩ ∧ es = lastOfEach ds := by
  have hload : (ofDirectory directory).load folder = ofEntries (items.map Value.toDatum) :=
    load_of_lists h
  constructor
  · intro hes
    obtain ⟨b, hb, rfl, -⟩ := exists_load_of_descriptors hes
    obtain ⟨ds, hds, hall, rfl⟩ := ofEntries_eq_ok_iff.mp (hload.symm.trans hb)
    exact ⟨ds, hds, hall, rfl⟩
  · rintro ⟨ds, hds, hall, rfl⟩
    exact descriptors_of_load (hload.trans (ofEntries_eq_ok_iff.mpr ⟨ds, hds, hall, rfl⟩))

theorem descriptors_eq_error_iff_of_lists (h : folder.Lists items) (directory : String)
    (fault : CatalogFault) :
    ((ofDirectory directory).descriptors folder).1 = .error fault ↔
      ∃ cause message, fault = .load cause ∧ Complaint items cause message := by
  have hload : (ofDirectory directory).load folder = ofEntries (items.map Value.toDatum) :=
    load_of_lists h
  constructor
  · intro hfault
    cases hcase : (ofDirectory directory).load folder with
    | ok b => cases (descriptors_of_load hcase).symm.trans hfault
    | error cause =>
      obtain ⟨message, hcomplaint⟩ := ofEntries_eq_error_iff.mp (hload.symm.trans hcase)
      rw [descriptors, use, hcase] at hfault
      exact ⟨cause, message, (Except.error.inj hfault).symm, hcomplaint⟩
  · rintro ⟨cause, message, rfl, hcomplaint⟩
    rw [descriptors, use, hload, ofEntries_eq_error_iff.mpr ⟨message, hcomplaint⟩]

/-- A rules file that is a mapping with a list of rules is loaded exactly if every entry is a definition
and every rule has one. There are then four definitions, the last one of each rule, in the order in which
the rules occur first; each is found by the name of its rule, no other name is known, and nothing that is
to be worded has an unknown rule. Otherwise the fault is that of the first entry that is no definition,
whatever rules are absent, and if there is none, that these rules are absent. -/
theorem list_of_rules_is_loaded_exactly {folder : Folder} {items : List Value} (h : folder.Lists items)
    (directory : String) :
    let k := ofDirectory directory
    ((∃ es, (k.descriptors folder).1 = .ok es) ↔
      ∃ ds, List.Forall₂ Defines items ds ∧ ∀ rule, ∃ d ∈ ds, d.rule = rule) ∧
    (∀ es, (k.descriptors folder).1 = .ok es →
      es.length = 4 ∧ (es.map Descriptor.rule).Nodup ∧ (∀ rule, ∃ e ∈ es, e.rule = rule) ∧
      (∀ ds, List.Forall₂ Defines items ds → Merges ds es) ∧
      (∀ e ∈ es, (k.describe folder e.rule.name).1 = .ok e) ∧
      (∀ name, (∀ rule : Rule, name ≠ rule.name) →
        (k.describe folder name).1 = .error (.unknownRule name)) ∧
      ∀ d location name, (k.format folder d location).1 ≠ .error (.unknownRule name)) ∧
    ∀ fault, (k.descriptors folder).1 = .error fault ↔
      ∃ cause message, fault = .load cause ∧ Complaint items cause message ∧
        fault.message? directory = some message := by
  intro k
  have hloads := descriptors_eq_ok_iff_of_lists h directory
  refine ⟨?_, fun es hes => ?_, fun fault => ?_⟩
  · simp only [k, hloads]
    constructor
    · rintro ⟨es, ds, hds, hall, -⟩
      exact ⟨ds, hds, hall⟩
    · rintro ⟨ds, hds, hall⟩
      exact ⟨lastOfEach ds, ds, hds, hall, rfl⟩
  · obtain ⟨b, hload, rfl, -⟩ := exists_load_of_descriptors hes
    have hcomplete : b.Complete := complete_of_load hload
    have hdistinct : b.Distinct := distinct_of_load hload
    obtain ⟨ds, hds, -, hb⟩ := (hloads b.descriptors).mp hes
    refine ⟨length_of_complete hcomplete hdistinct, hdistinct, hcomplete, fun ds' hds' => ?_,
      fun e he => ?_, fun name hname => ?_, fun d location name => ?_⟩
    · cases (readEntries_eq_ok_iff.mpr hds).symm.trans (readEntries_eq_ok_iff.mpr hds')
      exact hb ▸ merges_lastOfEach ds
    · rw [Catalog.describe, use_of_load hload, Rulebook.describe, hdistinct.describe? he]
    · rw [Catalog.describe, use_of_load hload, describe_of_unknown _ hname]
    · rw [Catalog.format, use_of_load hload]
      exact hcomplete.format_ne_unknownRule d location name
  · rw [descriptors_eq_error_iff_of_lists h directory]
    constructor
    · rintro ⟨cause, message, rfl, hcomplaint⟩
      exact ⟨cause, message, rfl, hcomplaint, hcomplaint.message?_eq directory⟩
    · rintro ⟨cause, message, hfault, hcomplaint, -⟩
      exact ⟨cause, message, hfault, hcomplaint⟩

/-- Entries of a rules file in which a rule occurs twice, and the key of the rules as well. -/
def repeatedText : String :=
  ("rules: 1\nrules:\n- &d \x7brule: missing_field, diagnostic_id: D, title: A, message_format: M, " ++
    "category: C\x7d\n- \x7b<<: *d, rule: missing_annotation\x7d\n" ++
    "- \x7b<<: *d, rule: duplicate_version\x7d\n- \x7b<<: *d, title: B\x7d\n" ++
    "- \x7b<<: *d, rule: invalid_field\x7d\n")

def repeatedRules : Folder := .ofText repeatedText

def repeatedDefinitions : List Descriptor :=
  [(.missingField, "A"), (.missingAttribute, "A"), (.duplicateVersion, "A"), (.missingField, "B"),
    (.invalidField, "A")].map fun x => ⟨x.1, "D", x.2, "M", .error, "C", true⟩

/-- The rule that occurs twice stands in its first place, with its last title. -/
theorem list_of_rules_is_loaded_exactly_of_repetition :
    ∃ items, repeatedRules.Lists items ∧ List.Forall₂ Defines items repeatedDefinitions ∧
      ∃ es, ((ofDirectory "rules").descriptors repeatedRules).1 = .ok es ∧
        es.map Descriptor.rule = [.missingField, .missingAttribute, .duplicateVersion, .invalidField] ∧
        ∀ e ∈ es, LastOf repeatedDefinitions e := by
  have hread : ((Value.ofSource depth (.ofOctets (Text.Utf8.encode repeatedText.toList))).toOption.bind
      (Value.listUnder? "rules")).map (List.map fun item => Descriptor.read item.toDatum) =
        some (repeatedDefinitions.map .ok) := by decide +kernel
  obtain ⟨items, hitems, hdefinitions⟩ := Option.map_eq_some_iff.mp hread
  have hlists : repeatedRules.Lists items := Folder.lists_file hitems
  have hds : List.Forall₂ Defines items repeatedDefinitions := by
    rw [← List.forall₂_eq_eq_eq, List.forall₂_map_left_iff, List.forall₂_map_right_iff] at hdefinitions
    exact hdefinitions
  obtain ⟨hiff, hloaded, -⟩ := list_of_rules_is_loaded_exactly hlists "rules"
  obtain ⟨es, hes⟩ := hiff.mpr ⟨repeatedDefinitions, hds, fun rule => by cases rule <;> decide⟩
  obtain ⟨-, -, -, hmerges, -⟩ := hloaded es hes
  exact ⟨items, hlists, hds, es, hes, (hmerges _ hds).rules, (hmerges _ hds).last⟩

end Catalog
end SerialAudit
