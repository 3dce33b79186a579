import SerialAudit.Proofs.Audit.Pass
import SerialAudit.Proofs.Text.Decimal

/-! Ids of different kinds in one registry.

* `Argument.Collides` : two ids are taken for the same one;
* `Candidate.Identifies` : a candidate is in scope, and its annotation gives an id that is not empty and a
  version that is a natural number.

All ids become texts, so a number collides with its numeral and a boolean with its word, and otherwise
only equal ids collide (`idText_eq_iff_collides`). The second of two such candidates is a duplicate exactly
if the versions are equal and the ids collide (`second_is_duplicate_iff`). -/
namespace SerialAudit
set_option autoImplicit false

/-! ## Ids -/

namespace Argument

def Collides : Argument → Argument → Prop
  | text s, text t => s.toList = t.toList
  | int m, int n => m = n
  | bool b, bool c => b = c
  | int n, text s | text s, int n => Text.IsNumeral n s.toList
  | bool b, text s | text s, bool b => s = if b then "True" else "False"
  | _, _ => False

theorem signed_ne_word (n : Int) (b : Bool) : Text.signed n ≠ if b then "True" else "False" := by
  cases b with
  | true => exact Text.signed_ne (c := 'T') rfl (by decide) (by decide)
  | false => exact Text.signed_ne (c := 'F') rfl (by decide) (by decide)

theorem idText_eq_iff_collides {x y : Argument} (hx : x ≠ .missing) (hy : y ≠ .missing) :
    x.idText = y.idText ↔ x.Collides y := by
  have hnumeral (n : Int) (s : String) : s = Text.signed n ↔ Text.IsNumeral n s.toList := by
    rw [Text.isNumeral_iff, String.toList_inj]
  have hwords : ∀ b c : Bool, (bool b).idText = (bool c).idText ↔ b = c := by decide
  cases x with
  | text s =>
    cases y with
    | text t => exact String.toList_inj.symm
    | int n => exact hnumeral n s
    | bool b => exact Iff.rfl
    | missing => exact absurd rfl hy
  | int m =>
    cases y with
    | text t => exact eq_comm.trans (hnumeral m t)
    | int n => exact Text.signed_inj
    | bool b => exact iff_of_false (signed_ne_word m b) id
    | missing => exact absurd rfl hy
  | bool b =>
    cases y with
    | text t => exact eq_comm
    | int n => exact iff_of_false (signed_ne_word n b).symm id
    | bool c => exact hwords b c
    | missing => exact absurd rfl hy
  | missing => exact absurd rfl hx

end Argument

/-! ## Candidates -/

namespace Candidate

structure Identifies (c : Candidate) (x : Argument) (v : Int) : Prop where
  inScope : c.Scoped
  annotated : ∃ a, c.Carries a ∧ a.argument? "id" = some x ∧ a.argument? "version" = some (.int v)
  id_written : ∃ s, x.Written s ∧ s ≠ ""
  version_nonneg : 0 ≤ v

variable {c d : Candidate} {x y : Argument} {v w : Int}

theorem Identifies.id_ne_missing (h : c.Identifies x v) : x ≠ .missing := by
  rintro rfl
  obtain ⟨s, hwritten, -⟩ := h.id_written
  cases hwritten

theorem Identifies.names (h : c.Identifies x v) : c.Names (x.idText, v) := by
  obtain ⟨a, hcarries, hid, hversion⟩ := h.annotated
  obtain ⟨s, hwritten, hs⟩ := h.id_written
  rw [hwritten.idText_eq]
  exact ⟨h.inScope, a, hcarries, ⟨⟨x, hid, hwritten⟩, hs, hversion, h.version_nonneg⟩⟩

theorem findings_pair {p q : Registry.Pair} (hc : c.Names p) (hd : d.Names q) :
    Registry.empty.findings [c, d] = [[], if q = p then [d.duplicate] else []] := by
  have hfirst : check c .empty = ⟨[], (Registry.empty.register p.1 p.2).2, []⟩ := by
    rw [check_of_names hc, if_neg (Registry.not_holds_empty p)]
  have hheld : (Registry.empty.register p.1 p.2).2.Holds q ↔ q = p := by
    rw [Registry.holds_register, or_iff_left (Registry.not_holds_empty q)]
  rw [Registry.findings, Registry.findings, Registry.findings, hfirst, check_of_names hd]
  by_cases hqp : q = p
  · rw [if_pos (hheld.mpr hqp), if_pos hqp]
  · rw [if_neg (mt hheld.mp hqp), if_neg hqp]

/-- Of two candidates that each have an id and a version and are checked one after the other, the first
passes, and the second is a duplicate if the versions are equal and the ids collide, or else passes too. -/
theorem second_is_duplicate_iff (hc : c.Identifies x v) (hd : d.Identifies y w) :
    (Registry.empty.findings [c, d] = [[], [⟨.duplicateVersion, d.name, none⟩]] ↔
      v = w ∧ x.Collides y) ∧
    (Registry.empty.findings [c, d] = [[], []] ↔ ¬ (v = w ∧ x.Collides y)) := by
  have hpair : (y.idText, w) = (x.idText, v) ↔ v = w ∧ x.Collides y := by
    rw [Prod.mk.injEq, ← Argument.idText_eq_iff_collides hc.id_ne_missing hd.id_ne_missing, and_comm,
      eq_comm (a := w), eq_comm (a := y.idText)]
  rw [findings_pair hc.names hd.names, ← hpair]
  by_cases heq : (y.idText, w) = (x.idText, v)
  · rw [if_pos heq]
    exact ⟨iff_of_true rfl heq, iff_of_false (by simp) (not_not.mpr heq)⟩
  · rw [if_neg heq]
    exact ⟨iff_of_false (by simp) heq, iff_of_true rfl heq⟩

/-- The number seven has the numeral 7, and not 07. -/
theorem second_is_duplicate_iff_of_numeral :
    let a := ofArguments "A" [("id", .int 7), ("version", .int 1)]
    let b := ofArguments "B" [("version", .int 1), ("id", .text "7")]
    let c := ofArguments "C" [("id", .text "07"), ("version", .int 1)]
    Registry.empty.findings [a, b] = [[], [⟨.duplicateVersion, "B", none⟩]] ∧
      Registry.empty.findings [a, c] = [[], []] := by
  intro a b c
  have ha : a.Identifies (.int 7) 1 :=
    ⟨scoped_ofArguments _ _, ⟨_, carries_ofArguments _ _, rfl, rfl⟩, ⟨_, .int 7, by decide⟩, by decide⟩
  have hb : b.Identifies (.text "7") 1 :=
    ⟨scoped_ofArguments _ _, ⟨_, carries_ofArguments _ _, rfl, rfl⟩, ⟨_, .text _, by decide⟩, by decide⟩
  have hc : c.Identifies (.text "07") 1 :=
    ⟨scoped_ofArguments _ _, ⟨_, carries_ofArguments _ _, rfl, rfl⟩, ⟨_, .text _, by decide⟩, by decide⟩
  have hnumeral (s : String) : (Argument.int 7).Collides (.text s) ↔ s.toList = (Text.signed 7).toList :=
    Text.isNumeral_iff 7 s.toList
  exact ⟨(second_is_duplicate_iff ha hb).1.mpr ⟨rfl, (hnumeral "7").mpr (by decide)⟩,
    (second_is_duplicate_iff ha hc).2.mpr fun h => absurd ((hnumeral "07").mp h.2) (by decide)⟩

end Candidate
end SerialAudit
