import Mathlib.Data.List.Induction
import Mathlib.Data.List.Nodup
import SerialAudit.Service

/-! Which diagnostics cannot be worded.

* `Rulebook.Complete`, `Rulebook.Distinct` : every rule has a definition, and no two are for one rule;
* `Rulebook.Unwordable` : the rule of a diagnostic is enabled, and its message cannot be made;
* `Catalog.Loaded` : the rules that are kept were once loaded.

Loaded rules are complete and distinct (`complete_of_load`, `distinct_of_load`), so that a wording fails
only at a message (`format_eq_error_iff`), and the wording of all diagnostics only at the wording of
one (`formatAll_eq_error_iff`). -/
namespace SerialAudit
set_option autoImplicit false

namespace Rulebook

/-! ## Definitions that are put in one by one -/

theorem map_rule_put (d : Descriptor) (es : List Descriptor) :
    (put d es).map Descriptor.rule =
      if d.rule ∈ es.map Descriptor.rule then es.map Descriptor.rule
      else es.map Descriptor.rule ++ [d.rule] := by
  induction es with
  | nil => rfl
  | cons e es ih =>
    rw [put]
    by_cases he : e.rule = d.rule
    · rw [if_pos he, List.map_cons, List.map_cons, he, if_pos List.mem_cons_self]
    · rw [if_neg he, List.map_cons, List.map_cons, ih]
      simp only [List.mem_cons, Ne.symm he, false_or]
      split <;> rfl

theorem lastOfEach_concat (ds : List Descriptor) (d : Descriptor) :
    lastOfEach (ds ++ [d]) = put d (lastOfEach ds) := by
  rw [lastOfEach, List.foldl_append]
  rfl

/-- The rules stand in the order in which they occur first. -/
theorem map_rule_lastOfEach (ds : List Descriptor) :
    (lastOfEach ds).map Descriptor.rule = (ds.map Descriptor.rule).eraseDups := by
  induction ds using List.reverseRecOn with
  | nil => rfl
  | append_singleton ds d ih =>
    rw [lastOfEach_concat, map_rule_put, ih, List.map_append, List.eraseDups_append, List.map_cons,
      List.cons_removeAll]
    by_cases h : d.rule ∈ ds.map Descriptor.rule
    · rw [if_pos (List.mem_eraseDups.mpr h), List.contains_iff_mem.mpr h]
      exact (List.append_nil _).symm
    · rw [if_neg (mt List.mem_eraseDups.mp h), Bool.eq_false_iff.mpr (mt List.contains_iff_mem.mp h)]
      rfl

/-! ## Complete rulebooks -/

def Complete (b : Rulebook) : Prop := ∀ rule, ∃ e ∈ b.descriptors, e.rule = rule

theorem mem_absentRules_iff (ds : List Descriptor) (rule : Rule) :
    rule ∈ absentRules ds ↔ ∀ d ∈ ds, d.rule ≠ rule := by
  rw [absentRules, List.mem_filter, and_iff_right rule.mem_all]
  simp

theorem absentRules_eq_nil_iff (ds : List Descriptor) : absentRules ds = [] ↔ Complete ⟨ds⟩ := by
  rw [List.eq_nil_iff_forall_not_mem]
  refine forall_congr' fun rule => ?_
  rw [mem_absentRules_iff]
  simp only [ne_eq, not_forall, not_not, exists_prop]

/-- A loaded rulebook is made of definitions among which no rule is absent. -/
theorem exists_lastOfEach_of_load {folder : Folder} {b : Rulebook} (h : load folder = .ok b) :
    ∃ ds, absentRules ds = [] ∧ b = ⟨lastOfEach ds⟩ := by
  rw [load] at h
  split at h
  · cases h
  · cases h
  · rw [ofSource] at h
    split at h
    · cases h
    · rename_i v _
      cases hentries : rulesEntries v with
      | error fault => rw [hentries] at h; cases h
      | ok entries =>
        rw [hentries] at h
        change ofEntries entries = .ok b at h
        rw [ofEntries] at h
        split at h
        · cases h
        · rename_i ds _
          split at h
          · rename_i habsent
            exact ⟨ds, habsent, (Except.ok.inj h).symm⟩
          · cases h

theorem complete_lastOfEach {ds : List Descriptor} (h : absentRules ds = []) :
    Complete ⟨lastOfEach ds⟩ := by
  intro rule
  have hmem : rule ∈ (lastOfEach ds).map Descriptor.rule := by
    rw [map_rule_lastOfEach, List.mem_eraseDups]
    exact List.mem_map.mpr ((absentRules_eq_nil_iff ds).mp h rule)
  exact List.mem_map.mp hmem

theorem complete_of_load {folder : Folder} {b : Rulebook} (h : load folder = .ok b) : b.Complete := by
  obtain ⟨ds, habsent, rfl⟩ := exists_lastOfEach_of_load h
  exact complete_lastOfEach habsent

/-! ## One definition for each rule -/

def Distinct (b : Rulebook) : Prop := (b.descriptors.map Descriptor.rule).Nodup

theorem distinct_put {d : Descriptor} {es : List Descriptor} (h : Distinct ⟨es⟩) :
    Distinct ⟨put d es⟩ := by
  rw [Distinct, map_rule_put]
  split
  · exact h
  · rename_i hnew
    exact List.nodup_append.mpr ⟨h, List.nodup_singleton _, fun r hr r' hr' heq =>
      hnew (List.mem_singleton.mp hr' ▸ heq ▸ hr)⟩

theorem distinct_lastOfEach (ds : List Descriptor) : Distinct ⟨lastOfEach ds⟩ := by
  induction ds using List.reverseRecOn with
  | nil => exact List.nodup_nil
  | append_singleton ds d ih =>
    rw [lastOfEach_concat]
    exact distinct_put ih

/-- One definition for each rule makes complete and distinct rules. -/
theorem complete_and_distinct_of_map_all {f : Rule → Descriptor} (hf : ∀ rule, (f rule).rule = rule) :
    Complete ⟨Rule.all.map f⟩ ∧ Distinct ⟨Rule.all.map f⟩ := by
  constructor
  · exact fun rule => ⟨f rule, List.mem_map_of_mem rule.mem_all, hf rule⟩
  · have hrules : Descriptor.rule ∘ f = id := funext hf
    rw [Distinct, List.map_map, hrules, List.map_id]
    decide

theorem distinct_of_load {folder : Folder} {b : Rulebook} (h : load folder = .ok b) : b.Distinct := by
  obtain ⟨ds, -, rfl⟩ := exists_lastOfEach_of_load h
  exact distinct_lastOfEach ds

theorem rule_of_describe? {b : Rulebook} {rule : Rule} {e : Descriptor}
    (h : b.describe? rule.name = some e) : e.rule = rule := by
  have hname := List.find?_some (p := fun x : Descriptor => x.rule.name = rule.name) h
  exact Rule.name_injective (of_decide_eq_true hname)

theorem Distinct.describe? {b : Rulebook} (hb : b.Distinct) {e : Descriptor}
    (he : e ∈ b.descriptors) : b.describe? e.rule.name = some e := by
  obtain ⟨e', he'⟩ : ∃ e', b.describe? e.rule.name = some e' :=
    Option.isSome_iff_exists.mp (List.find?_isSome.mpr ⟨e, he, decide_eq_true rfl⟩)
  rw [he', List.inj_on_of_nodup_map hb (List.mem_of_find?_eq_some he') he (rule_of_describe? he')]

theorem Complete.exists_describe? {b : Rulebook} (hb : b.Complete) (rule : Rule) :
    ∃ e, b.describe? rule.name = some e := by
  obtain ⟨e, he, rfl⟩ := hb rule
  exact Option.isSome_iff_exists.mp (List.find?_isSome.mpr ⟨e, he, decide_eq_true rfl⟩)

/-! ## Wordings that fail -/

def Unwordable (b : Rulebook) (d : Diagnostic) : Prop :=
  ∃ e, b.describe? d.rule.name = some e ∧ e.enabled = true ∧
    ∃ fault, Template.render (names d) e.messageFormat = .error fault

theorem format_of_describe? {b : Rulebook} {d : Diagnostic} {e : Descriptor}
    (he : b.describe? d.rule.name = some e) (location : Option String) :
    b.format d location =
      if e.enabled then
        match Template.render (names d) e.messageFormat with
        | .error fault => .error (.wording fault)
        | .ok message => .ok (some ⟨e.diagnosticId, d.rule, e.severity, e.category, message,
            d.className, d.fieldName, location⟩)
      else .ok none := by
  rw [format, describe, he]
  rfl

theorem format_eq_error_iff {b : Rulebook} (hb : b.Complete) (d : Diagnostic)
    (location : Option String) :
    (∃ fault, b.format d location = .error fault) ↔ b.Unwordable d := by
  obtain ⟨e, he⟩ := hb.exists_describe? d.rule
  rw [format_of_describe? he]
  constructor
  · rintro ⟨fault, h⟩
    split at h
    · rename_i henabled
      split at h
      · rename_i hrender
        exact ⟨e, he, henabled, _, hrender⟩
      · cases h
    · cases h
  · rintro ⟨e', he', henabled, fault, hrender⟩
    obtain rfl : e = e' := Option.some.inj (he.symm.trans he')
    rw [if_pos henabled, hrender]
    exact ⟨_, rfl⟩

theorem formatEach_eq_error_iff (b : Rulebook) (location : Option String) (ds : List Diagnostic) :
    (∃ fault, b.formatEach location ds = .error fault) ↔
      ∃ d ∈ ds, ∃ fault, b.format d location = .error fault := by
  induction ds with
  | nil => simp [formatEach]
  | cons d ds ih =>
    rw [formatEach, List.exists_mem_cons_iff, ← ih]
    cases b.format d location with
    | error fault => simp [bind, Except.bind]
    | ok first => cases b.formatEach location ds <;> simp [bind, Except.bind]

theorem formatAll_eq_error_iff (b : Rulebook) (results : List (Candidate × List Diagnostic)) :
    (∃ fault, b.formatAll results = .error fault) ↔
      ∃ x ∈ results, ∃ d ∈ x.2, ∃ fault, b.format d x.1.location = .error fault := by
  induction results with
  | nil => simp [formatAll]
  | cons x results ih =>
    obtain ⟨c, ds⟩ := x
    rw [formatAll, List.exists_mem_cons_iff, ← ih, ← formatEach_eq_error_iff]
    cases b.formatEach c.location ds with
    | error fault => simp [bind, Except.bind]
    | ok first => cases b.formatAll results <;> simp [bind, Except.bind]

end Rulebook

/-! ## Catalogs -/

def Catalog.Loaded (k : Catalog) : Prop :=
  ∀ b, k.rulebook = some b → ∃ folder, Rulebook.load folder = .ok b

namespace Catalog

theorem use_of_load {α : Type} {k : Catalog} {folder : Folder} {b : Rulebook}
    (h : k.load folder = .ok b) (f : Rulebook → Except CatalogFault α) :
    k.use folder f = (f b, { k with rulebook := some b }) := by
  rw [use, h]

theorem descriptors_of_load {k : Catalog} {folder : Folder} {b : Rulebook}
    (h : k.load folder = .ok b) : (k.descriptors folder).1 = .ok b.descriptors :=
  congrArg Prod.fst (use_of_load h _)

theorem exists_load_of_descriptors {k : Catalog} {folder : Folder} {ds : List Descriptor}
    (h : (k.descriptors folder).1 = .ok ds) :
    ∃ b, k.load folder = .ok b ∧ b.descriptors = ds ∧
      (k.descriptors folder).2 = ⟨k.directory, some b⟩ := by
  cases hload : k.load folder with
  | error fault =>
    rw [descriptors, use, hload] at h
    cases h
  | ok b =>
    rw [descriptors, use_of_load hload] at h ⊢
    exact ⟨b, rfl, Except.ok.inj h, rfl⟩

theorem Loaded.ofDirectory (directory : String) : (ofDirectory directory).Loaded :=
  fun _ h => (Option.some_ne_none _ h.symm).elim

theorem Loaded.exists_load {k : Catalog} (h : k.Loaded) {folder : Folder} {b : Rulebook}
    (hb : k.load folder = .ok b) : ∃ folder', Rulebook.load folder' = .ok b := by
  cases hk : k.rulebook with
  | none =>
    rw [load, hk] at hb
    exact ⟨folder, hb⟩
  | some b' =>
    rw [load, hk] at hb
    exact h b (hk.trans (congrArg some (Except.ok.inj hb)))

theorem Loaded.complete {k : Catalog} (h : k.Loaded) {folder : Folder} {b : Rulebook}
    (hb : k.load folder = .ok b) : b.Complete := by
  obtain ⟨folder', hload⟩ := h.exists_load hb
  exact Rulebook.complete_of_load hload

end Catalog

end SerialAudit
