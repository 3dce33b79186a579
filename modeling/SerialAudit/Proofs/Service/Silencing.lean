import SerialAudit.Proofs.Rulebook.Reporting
import SerialAudit.Proofs.Service.Call

/-! Rules that are not enabled.

* `Rulebook.silence` : a rulebook in which some rules are not enabled.

A rule that is silenced is checked as before, and only its diagnostics are left out of the report: each
position reports what it did, without them (`reportAt_silence`). So whatever could be worded still can,
and the report is filtered (`analyze_silence`). -/
namespace SerialAudit
set_option autoImplicit false

/-! ## Silenced rules -/

def Descriptor.silence (rules : List Rule) (e : Descriptor) : Descriptor :=
  if e.rule ∈ rules then { e with enabled := false } else e

theorem Descriptor.rule_silence (rules : List Rule) (e : Descriptor) :
    (e.silence rules).rule = e.rule := by
  unfold silence
  split <;> rfl

namespace Rulebook

def silence (rules : List Rule) (b : Rulebook) : Rulebook :=
  ⟨b.descriptors.map (Descriptor.silence rules)⟩

variable {b : Rulebook} {rules : List Rule} {d : Diagnostic} {location : Option String}
  {r : Registry} {cs : List Candidate}

theorem describe?_silence (rules : List Rule) (b : Rulebook) (name : String) :
    (b.silence rules).describe? name = (b.describe? name).map (Descriptor.silence rules) := by
  have hname : ((fun e : Descriptor => decide (e.rule.name = name)) ∘ Descriptor.silence rules) =
      fun e => decide (e.rule.name = name) :=
    funext fun e => by rw [Function.comp_apply, Descriptor.rule_silence]
  rw [describe?, silence, List.find?_map, hname]
  rfl

theorem format_silence {o : Option Reported} (h : b.format d location = .ok o) :
    (b.silence rules).format d location = .ok (if d.rule ∈ rules then none else o) := by
  cases he : b.describe? d.rule.name with
  | none =>
    rw [format_of_describe?_eq_none he] at h
    cases h
  | some e =>
    have hsilent : (b.silence rules).describe? d.rule.name = some (e.silence rules) := by
      rw [describe?_silence, he]
      rfl
    rw [format_of_describe? hsilent, Descriptor.silence, rule_of_describe? he]
    by_cases hr : d.rule ∈ rules
    · rw [if_pos hr, if_pos hr]
      rfl
    · rw [if_neg hr, if_neg hr, ← h, format_of_describe? he]

theorem tell?_silence {o : Option Reported} (h : b.format d location = .ok o) :
    (b.silence rules).tell? location d =
      (b.tell? location d).filter fun x => decide (x.rule ∉ rules) := by
  rw [tell?_of_format (format_silence h), tell?_of_format h]
  cases o with
  | none => rw [ite_self]; rfl
  | some x =>
    obtain ⟨rfl, -⟩ := diagnostic_of_tell? (tell?_of_format h)
    by_cases hr : x.rule ∈ rules
    · rw [if_pos (show x.diagnostic.rule ∈ rules from hr), Option.filter_some_neg (by simpa using hr)]
    · rw [if_neg (show x.diagnostic.rule ∉ rules from hr), Option.filter_some_pos (by simpa using hr)]

theorem reportAt_silence {i : Fin cs.length}
    (h : ∀ d ∈ (check (cs.get i) (r.after (cs.take i))).diagnostics,
      ∃ o, b.format d (cs.get i).location = .ok o) :
    (b.silence rules).reportAt r cs i =
      (b.reportAt r cs i).filter fun x => decide (x.rule ∉ rules) := by
  -- the check is the same under both rulebooks; only the wordings of its diagnostics differ
  rw [reportAt, reportAt, List.filter_filterMap]
  refine List.filterMap_congr fun d hd => ?_
  obtain ⟨o, ho⟩ := h d hd
  exact tell?_silence ho

theorem formatAll_silence {xs : List Reported} (h : b.formatAll (cs.zip (r.findings cs)) = .ok xs) :
    (b.silence rules).formatAll (cs.zip (r.findings cs)) =
      .ok (xs.filter fun x => decide (x.rule ∉ rules)) := by
  obtain ⟨hok, rfl⟩ := (formatAll_findings_eq_ok_iff xs).mp h
  refine (formatAll_findings_eq_ok_iff _).mpr ⟨fun i d hd => ?_, ?_⟩
  · obtain ⟨o, ho⟩ := hok i d hd
    exact ⟨_, format_silence ho⟩
  · rw [List.filter_flatMap]
    exact List.flatMap_congr fun i _ => reportAt_silence (hok i)

end Rulebook

/-! ## Analyses -/

namespace Service

/-- Two services differ in their rules at most in that some are not enabled in the second. Where the first
has a report on some candidates, the second has the same without the diagnostics of those rules, and
leaves the run the same. In both reports each diagnostic belongs to a position of its own. -/
theorem analyze_silence {s t : Service} {folder folder' : Folder} {b : Rulebook} {rules : List Rule}
    (hs : s.WorksBy folder b) (ht : t.WorksBy folder' (b.silence rules)) (run : Run)
    (cs : List Candidate) {r : Report} (hr : (s.analyze folder run cs).outcome = .ok r) :
    (∃ r', (t.analyze folder' run cs).outcome = .ok r' ∧
      r'.diagnostics = r.diagnostics.filter (fun x => decide (x.rule ∉ rules)) ∧
      r'.runId = r.runId ∧ r'.checkedCount = r.checkedCount ∧ r'.registered = r.registered ∧
      ∃ positions, (b.silence rules).Places run.registry cs r'.diagnostics positions) ∧
    (∃ positions, b.Places run.registry cs r.diagnostics positions) ∧
    (t.analyze folder' run cs).run = (s.analyze folder run cs).run := by
  rw [hs.outcome_analyze] at hr
  obtain ⟨xs, hxs, rfl⟩ := reportOn_eq_ok_iff.mp hr
  have hsilent : (b.silence rules).formatAll (cs.zip (run.registry.findings cs)) =
      .ok (xs.filter fun x => decide (x.rule ∉ rules)) := Rulebook.formatAll_silence hxs
  refine ⟨⟨report (run.checkAll cs).run cs.length (xs.filter fun x => decide (x.rule ∉ rules)), ?_, rfl,
    rfl, rfl, rfl, Rulebook.exists_places hsilent⟩, Rulebook.exists_places hxs, ?_⟩
  · rw [ht.outcome_analyze]
    exact reportOn_eq_ok_iff.mpr ⟨_, hsilent, rfl⟩
  · rw [hs.run_analyze, ht.run_analyze]

/-- The second class has the pair of the first, and what it violates is not enabled. -/
theorem analyze_silence_of_duplicate :
    let b : Rulebook := ⟨Rule.all.map fun rule => ⟨rule, "D", "T", "M", .error, "C", true⟩⟩
    let s : Service := ⟨⟨"rules", some b⟩, 1⟩
    let t : Service := ⟨⟨"others", some (b.silence [.duplicateVersion])⟩, 1⟩
    let run : Run := ⟨"r", .empty⟩
    let cs : List Candidate :=
      [.ofPair "A" "x" 1, .ofPair "E" "x" 1, { Candidate.ofName "B" with location := some "b" }]
    let duplicate : Reported := ⟨"D", .duplicateVersion, .error, "C", "M", "E", none, none⟩
    let missing : Reported := ⟨"D", .missingAttribute, .error, "C", "M", "B", none, some "b"⟩
    s.WorksBy .absent b ∧ t.WorksBy .directory (b.silence [.duplicateVersion]) ∧
      (s.analyze .absent run cs).outcome = .ok ⟨"r", 3, [duplicate, missing], [("x", [1])]⟩ ∧
      ∃ r, (t.analyze .directory run cs).outcome = .ok r ∧ r.diagnostics = [missing] ∧
        r.registered = [("x", [1])] := by
  intro b s t run cs duplicate missing
  have hs : s.WorksBy .absent b := ⟨rfl, rfl⟩
  have ht : t.WorksBy .directory (b.silence [.duplicateVersion]) := ⟨rfl, rfl⟩
  have hr : (s.analyze .absent run cs).outcome =
      .ok ⟨"r", 3, [duplicate, missing], [("x", [1])]⟩ := by
    decide +kernel
  obtain ⟨⟨r, hr', hdiagnostics, -, -, hregistered, -⟩, -, -⟩ := analyze_silence hs ht run cs hr
  have hfilter : [duplicate, missing].filter (fun x => decide (x.rule ∉ [Rule.duplicateVersion])) =
      [missing] := by
    decide
  exact ⟨hs, ht, hr, r, hr', hdiagnostics.trans hfilter, hregistered⟩

end Service
end SerialAudit
