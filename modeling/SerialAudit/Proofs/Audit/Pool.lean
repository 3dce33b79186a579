import Mathlib.Data.List.FinRange
import Mathlib.Logic.Function.Basic
import Mathlib.Order.WellFounded
import SerialAudit.Proofs.Audit.Pass

/-! Checks under way at once on one registry. A check first reads its candidate, which needs no registry,
and then, if the candidate names a pair, registers the pair in one step. The steps of different checks
come in any order.

* `Stage` : how far a check has come;
* `Candidate.reading`, `Candidate.register` : the step without the registry and the step on it;
* `Pool`, `Pool.start` : some checks with their registry, and before the first step;
* `Pool.step`, `Pool.run` : the next step of one check, and those of a schedule;
* `Pool.Ends` : all checks are done, with these diagnostics.

Two steps of one check without others in between are `check` (`step_step_of_waiting`). The checks that
are done always amount to a pass in the order in which they were done (`Serial`, kept by
`Serial.step`), so a schedule that ends amounts to a pass over all candidates in some order
(`serial_of_ends`); and every schedule can be brought to its end (`exists_ends`). In such a pass each check
has its verdict by the ones before it (`verdict_of_serial`), so that of the candidates that name a free pair
exactly one wins (`exists_winner`). -/
namespace SerialAudit
set_option autoImplicit false

open Registry (Pair)

/-! ## The steps of a check -/

inductive Stage where
  | waiting
  | claiming (p : Pair)
  | done (ds : List Diagnostic)
  deriving DecidableEq

namespace Candidate

/-- What a check knows before it turns to the registry. -/
def reading (c : Candidate) : Stage :=
  match classify c with
  | ⟨.outOfScope, _⟩ => .done []
  | ⟨.hasAttribute, some a⟩ =>
    match a.pair? with
    | .error fault => .done [⟨fault.rule, c.name, some fault.field⟩]
    | .ok p => .claiming p
  | _ => .done [⟨.missingAttribute, c.name, none⟩]

def register (c : Candidate) (p : Pair) (r : Registry) : List Diagnostic × Registry :=
  match r.register p.1 p.2 with
  | (true, r') => ([], r')
  | (false, r') => ([c.duplicate], r')

theorem reading_of_carries {c : Candidate} {a : Attribute} (hs : c.Scoped) (ha : c.Carries a) :
    c.reading = match a.pair? with
      | .error fault => .done [⟨fault.rule, c.name, some fault.field⟩]
      | .ok p => .claiming p := by
  have hi : c.inScope = true := c.inScope_iff.mpr hs
  have hf : c.serializedId? = some a := (c.serializedId?_eq_some_iff a).mpr ha
  simp only [reading, classify, hi, hf, if_true]

theorem reading_of_settled {c : Candidate} {ds : List Diagnostic} (h : c.Settled ds) :
    c.reading = .done ds := by
  cases h with
  | outOfScope h =>
    have hi : c.inScope = false := Bool.eq_false_iff.mpr fun hi => h (c.inScope_iff.mp hi)
    simp only [reading, classify, hi, Bool.false_eq_true, if_false]
  | unannotated h ha =>
    have hi : c.inScope = true := c.inScope_iff.mpr h
    have hf : c.serializedId? = none := c.serializedId?_eq_none_iff.mpr ha
    simp only [reading, classify, hi, hf, if_true]
  | failed h ha hf => rw [reading_of_carries h ha, Attribute.pair?_eq_error hf]

theorem reading_of_names {c : Candidate} {p : Pair} (h : c.Names p) : c.reading = .claiming p := by
  obtain ⟨hs, a, ha, hp⟩ := h
  rw [reading_of_carries hs ha, Attribute.pair?_eq_ok hp]

theorem register_of_names {c : Candidate} {p : Pair} (h : c.Names p) (r : Registry) :
    c.register p r = ((check c r).diagnostics, (check c r).registry) := by
  rw [check_of_names h]
  by_cases held : r.Holds p
  · rw [if_pos held, register, Registry.register_of_holds held]
  · rw [if_neg held, register, Registry.register_of_not_holds held]

end Candidate

/-! ## Pools and schedules -/

structure Pool (cs : List Candidate) where
  stage : Fin cs.length → Stage
  registry : Registry

namespace Pool

variable {cs : List Candidate}

def start (cs : List Candidate) (r : Registry) : Pool cs := ⟨fun _ => .waiting, r⟩

def set (s : Pool cs) (i : Fin cs.length) (st : Stage) (r : Registry) : Pool cs :=
  ⟨Function.update s.stage i st, r⟩

@[simp] theorem stage_set_self (s : Pool cs) (i : Fin cs.length) (st : Stage) (r : Registry) :
    (s.set i st r).stage i = st := Function.update_self ..

theorem stage_set_of_ne (s : Pool cs) {i j : Fin cs.length} (h : j ≠ i) (st : Stage) (r : Registry) :
    (s.set i st r).stage j = s.stage j := Function.update_of_ne h ..

@[simp] theorem registry_set (s : Pool cs) (i : Fin cs.length) (st : Stage) (r : Registry) :
    (s.set i st r).registry = r := rfl

theorem set_set (s : Pool cs) (i : Fin cs.length) (st st' : Stage) (r r' : Registry) :
    (s.set i st r).set i st' r' = s.set i st' r' := by
  simp only [set, Function.update_idem]

/-- The next step of one check; a check that is done takes no further step. -/
def step (s : Pool cs) (i : Fin cs.length) : Pool cs :=
  match s.stage i with
  | .waiting => s.set i (cs.get i).reading s.registry
  | .claiming p =>
    s.set i (.done ((cs.get i).register p s.registry).1) ((cs.get i).register p s.registry).2
  | .done _ => s

def run (s : Pool cs) (schedule : List (Fin cs.length)) : Pool cs := schedule.foldl step s

def Ends (s : Pool cs) (out : Fin cs.length → List Diagnostic) : Prop := ∀ i, s.stage i = .done (out i)

theorem run_append (s : Pool cs) (first second : List (Fin cs.length)) :
    s.run (first ++ second) = (s.run first).run second := List.foldl_append

theorem step_of_waiting {s : Pool cs} {i : Fin cs.length} (h : s.stage i = .waiting) :
    s.step i = s.set i (cs.get i).reading s.registry := by
  rw [step, h]

theorem step_of_claiming {s : Pool cs} {i : Fin cs.length} {p : Pair} (h : s.stage i = .claiming p)
    (hp : (cs.get i).Names p) :
    s.step i = s.set i (.done (check (cs.get i) s.registry).diagnostics)
      (check (cs.get i) s.registry).registry := by
  rw [step, h]
  simp only [Candidate.register_of_names hp]

theorem step_of_done {s : Pool cs} {i : Fin cs.length} {ds : List Diagnostic}
    (h : s.stage i = .done ds) : s.step i = s := by
  rw [step, h]

theorem step_step_of_waiting {s : Pool cs} {i : Fin cs.length} (h : s.stage i = .waiting) :
    (s.step i).step i =
      s.set i (.done (check (cs.get i) s.registry).diagnostics)
        (check (cs.get i) s.registry).registry := by
  rw [step_of_waiting h]
  rcases (cs.get i).settled_or_names with ⟨ds, hs⟩ | ⟨p, hp⟩
  · rw [Candidate.reading_of_settled hs, check_of_settled hs,
      step_of_done (stage_set_self s i (.done ds) s.registry)]
  · rw [Candidate.reading_of_names hp,
      step_of_claiming (stage_set_self s i (.claiming p) s.registry) hp, registry_set, set_set]

/-! ## Schedules amount to passes -/

/-- The checks that are done, in this order, amount to a pass; the others have left no trace. -/
structure Serial (r : Registry) (s : Pool cs) (order : List (Fin cs.length)) : Prop where
  nodup : order.Nodup
  registry_eq : s.registry = r.after (order.map cs.get)
  stages : order.map s.stage = (r.findings (order.map cs.get)).map .done
  pending : ∀ i ∉ order, s.stage i = .waiting ∨ ∃ p, (cs.get i).Names p ∧ s.stage i = .claiming p

theorem Serial.start (cs : List Candidate) (r : Registry) : Serial r (start cs r) [] :=
  ⟨List.nodup_nil, rfl, rfl, fun _ _ => Or.inl rfl⟩

theorem Serial.not_mem {r : Registry} {s : Pool cs} {order : List (Fin cs.length)}
    (h : Serial r s order) {i : Fin cs.length} (hi : ∀ ds, s.stage i ≠ .done ds) : i ∉ order := by
  intro hmem
  have hstage : s.stage i ∈ (r.findings (order.map cs.get)).map .done :=
    h.stages ▸ List.mem_map_of_mem hmem
  obtain ⟨ds, -, hds⟩ := List.mem_map.mp hstage
  exact hi ds hds.symm

/-- A check that becomes done with what a check on the present registry gives comes last in the pass. -/
theorem Serial.finish {r : Registry} {s : Pool cs} {order : List (Fin cs.length)}
    (h : Serial r s order) {i : Fin cs.length} (hi : i ∉ order) :
    Serial r (s.set i (.done (check (cs.get i) s.registry).diagnostics)
      (check (cs.get i) s.registry).registry) (order ++ [i]) := by
  have hne : ∀ j ∈ order, j ≠ i := fun j hj he => hi (he ▸ hj)
  constructor
  · exact List.nodup_append.mpr ⟨h.nodup, List.nodup_singleton i, fun a ha b hb =>
      (List.mem_singleton.mp hb) ▸ hne a ha⟩
  · rw [List.map_append, Registry.after_append, ← h.registry_eq]
    rfl
  · rw [List.map_append, List.map_append, Registry.findings_append, List.map_append,
      List.map_congr_left fun j hj => stage_set_of_ne s (hne j hj) _ _, h.stages, ← h.registry_eq,
      List.map_singleton, stage_set_self]
    rfl
  · intro j hj
    rw [List.mem_append, List.mem_singleton, not_or] at hj
    rw [stage_set_of_ne s hj.2]
    exact h.pending j hj.1

theorem Serial.step {r : Registry} {s : Pool cs} {order : List (Fin cs.length)}
    (h : Serial r s order) (i : Fin cs.length) : ∃ order', Serial r (s.step i) order' := by
  cases hst : s.stage i with
  | done ds => exact ⟨order, by rw [step_of_done hst]; exact h⟩
  | claiming p =>
    have hi : i ∉ order := h.not_mem fun ds => by rw [hst]; exact Stage.noConfusion
    have hp : (cs.get i).Names p := by
      rcases h.pending i hi with hw | ⟨q, hq, hc⟩
      · exact Stage.noConfusion (hst.symm.trans hw)
      · obtain rfl : p = q := Stage.claiming.inj (hst.symm.trans hc)
        exact hq
    -- it registers on the present registry, as a check that begins only now would
    rw [step_of_claiming hst hp]
    exact ⟨order ++ [i], h.finish hi⟩
  | waiting =>
    have hi : i ∉ order := h.not_mem fun ds => by rw [hst]; exact Stage.noConfusion
    have hne : ∀ j ∈ order, j ≠ i := fun j hj he => hi (he ▸ hj)
    rw [step_of_waiting hst]
    rcases (cs.get i).settled_or_names with ⟨ds, hs⟩ | ⟨p, hp⟩
    · -- the check is done without the registry, so it may come last in the pass
      have hfinish := h.finish hi
      rw [check_of_settled hs] at hfinish
      rw [Candidate.reading_of_settled hs]
      exact ⟨order ++ [i], hfinish⟩
    · rw [Candidate.reading_of_names hp]
      refine ⟨order, h.nodup, h.registry_eq, ?_, fun j hj => ?_⟩
      · rw [← h.stages]
        exact List.map_congr_left fun j hj => stage_set_of_ne s (hne j hj) _ _
      · by_cases hji : j = i
        · subst hji
          exact Or.inr ⟨p, hp, stage_set_self ..⟩
        · rw [stage_set_of_ne s hji]
          exact h.pending j hj

theorem Serial.run {r : Registry} {s : Pool cs} {order : List (Fin cs.length)}
    (h : Serial r s order) (schedule : List (Fin cs.length)) :
    ∃ order', Serial r (s.run schedule) order' := by
  induction schedule generalizing s order with
  | nil => exact ⟨order, h⟩
  | cons i schedule ih =>
    obtain ⟨order', h'⟩ := h.step i
    exact ih h'

theorem serial_of_ends {r : Registry} {schedule : List (Fin cs.length)}
    {out : Fin cs.length → List Diagnostic} (h : ((start cs r).run schedule).Ends out) :
    ∃ order : List (Fin cs.length), order.Perm (List.finRange cs.length) ∧
      ((start cs r).run schedule).registry = r.after (order.map cs.get) ∧
      order.map out = r.findings (order.map cs.get) := by
  obtain ⟨order, hs⟩ := (Serial.start cs r).run schedule
  -- a check outside the order is waiting or claiming, so it has not ended
  have hall : ∀ i, i ∈ order := by
    intro i
    by_contra hi
    rcases hs.pending i hi with hw | ⟨p, -, hc⟩
    · exact Stage.noConfusion ((h i).symm.trans hw)
    · exact Stage.noConfusion ((h i).symm.trans hc)
  have hout : (order.map out).map Stage.done = (r.findings (order.map cs.get)).map .done := by
    rw [← hs.stages, List.map_map]
    exact List.map_congr_left fun i _ => (h i).symm
  refine ⟨order, ?_, hs.registry_eq, (List.map_injective_iff.mpr fun _ _ => Stage.done.inj) hout⟩
  exact (List.perm_ext_iff_of_nodup hs.nodup (List.nodup_finRange _)).mpr fun i =>
    ⟨fun _ => List.mem_finRange i, fun _ => hall i⟩

/-! ## Every schedule has an end -/

theorem stage_step_of_done {s : Pool cs} {i : Fin cs.length} {ds : List Diagnostic}
    (h : s.stage i = .done ds) (j : Fin cs.length) : (s.step j).stage i = .done ds := by
  by_cases hij : i = j
  · subst hij
    rw [step_of_done h, h]
  · rw [step]
    split
    · rw [stage_set_of_ne s hij, h]
    · rw [stage_set_of_ne s hij, h]
    · exact h

theorem stage_run_of_done {s : Pool cs} {i : Fin cs.length} {ds : List Diagnostic}
    (h : s.stage i = .done ds) (schedule : List (Fin cs.length)) :
    (s.run schedule).stage i = .done ds := by
  induction schedule generalizing s with
  | nil => exact h
  | cons j schedule ih => exact ih (stage_step_of_done h j)

theorem exists_done_step_step (s : Pool cs) (i : Fin cs.length) :
    ∃ ds, ((s.step i).step i).stage i = .done ds := by
  cases hst : s.stage i with
  | done ds => exact ⟨ds, stage_step_of_done (stage_step_of_done hst i) i⟩
  | claiming p =>
    have hdone : (s.step i).stage i = .done ((cs.get i).register p s.registry).1 := by
      rw [step, hst]
      exact stage_set_self ..
    exact ⟨_, stage_step_of_done hdone i⟩
  | waiting => exact ⟨_, by rw [step_step_of_waiting hst]; exact stage_set_self ..⟩

theorem exists_done_run (s : Pool cs) (is : List (Fin cs.length)) {i : Fin cs.length} (hi : i ∈ is) :
    ∃ ds, (s.run (is.flatMap fun i => [i, i])).stage i = .done ds := by
  induction is generalizing s with
  | nil => exact absurd hi List.not_mem_nil
  | cons j is ih =>
    rw [List.flatMap_cons, run_append]
    rcases List.mem_cons.mp hi with rfl | hi
    · obtain ⟨ds, hds⟩ := s.exists_done_step_step i
      exact ⟨ds, stage_run_of_done hds _⟩
    · exact ih _ hi

theorem exists_ends (s : Pool cs) (schedule : List (Fin cs.length)) :
    ∃ more out, (s.run (schedule ++ more)).Ends out := by
  have hdone : ∀ i, ∃ ds, (s.run
      (schedule ++ (List.finRange cs.length).flatMap fun i => [i, i])).stage i = .done ds := by
    intro i
    rw [run_append]
    exact exists_done_run _ _ (List.mem_finRange i)
  choose out hout using hdone
  exact ⟨_, out, hout⟩

/-! ## The checks in the order in which they were done -/

section Order

variable {r : Registry} {order : List (Fin cs.length)} {out : Fin cs.length → List Diagnostic}

theorem exists_position (hperm : order.Perm (List.finRange cs.length)) (i : Fin cs.length) :
    ∃ k : Fin order.length, order.get k = i := by
  obtain ⟨k, hk, he⟩ := List.mem_iff_getElem.mp (hperm.mem_iff.mpr (List.mem_finRange i))
  exact ⟨⟨k, hk⟩, he⟩

/-- In a pass in some order each check has the verdict in which the pairs from before and those of the
checks before it are taken. -/
theorem verdict_of_serial (hout : order.map out = r.findings (order.map cs.get))
    (k : Fin order.length) :
    Verdict (fun p => r.Holds p ∨ ∃ j < k, (cs.get (order.get j)).Names p) (cs.get (order.get k))
      (out (order.get k)) := by
  have hlen : (order.map cs.get).length = order.length := List.length_map ..
  have hk : (r.findings (order.map cs.get))[k.val]? = some (out (order.get k)) := by
    rw [← hout]
    simp
  have hv := (Registry.findings_iff_verdict_from r _ (k.cast hlen.symm) _).mp hk
  have htaken : (fun p => r.Holds p ∨ ∃ j < k.cast hlen.symm, ((order.map cs.get).get j).Names p) =
      fun p => r.Holds p ∨ ∃ j < k, (cs.get (order.get j)).Names p := by
    funext p
    rw [eq_iff_iff]
    refine or_congr_right ⟨?_, ?_⟩
    · rintro ⟨j, hj, hp⟩
      exact ⟨j.cast hlen, hj, by simpa using hp⟩
    · rintro ⟨j, hj, hp⟩
      exact ⟨j.cast hlen.symm, hj, by simpa using hp⟩
  rw [htaken] at hv
  simpa using hv

theorem eq_check_empty_of_serial (hperm : order.Perm (List.finRange cs.length))
    (hout : order.map out = r.findings (order.map cs.get)) {i : Fin cs.length}
    (hi : ∀ p, ¬ (cs.get i).Names p) : out i = (check (cs.get i) .empty).diagnostics := by
  obtain ⟨k, rfl⟩ := exists_position hperm i
  exact (verdict_of_serial hout k).eq_check_empty hi

/-- The first check in the order that names a free pair passes; all others that name it do not. -/
theorem exists_winner (hperm : order.Perm (List.finRange cs.length))
    (hout : order.map out = r.findings (order.map cs.get)) {p : Pair} (hfree : ¬ r.Holds p)
    (hex : ∃ i : Fin cs.length, (cs.get i).Names p) :
    ∃ i, (cs.get i).Names p ∧ out i = [] ∧
      ∀ j, j ≠ i → (cs.get j).Names p → out j = [(cs.get j).duplicate] := by
  have hsome : ∃ k : Fin order.length, (cs.get (order.get k)).Names p := by
    obtain ⟨i, hi⟩ := hex
    obtain ⟨k, rfl⟩ := exists_position hperm i
    exact ⟨k, hi⟩
  -- the winner is the check that comes first in the order among those that name the pair
  obtain ⟨k, hk, hfirst⟩ := WellFounded.has_min (wellFounded_lt (α := Fin order.length))
    {k | (cs.get (order.get k)).Names p} hsome
  refine ⟨order.get k, hk, ?_, fun j hj hp => ?_⟩
  · refine (verdict_of_serial hout k).eq_nil hk ?_
    rintro (h | ⟨j, hj, hp⟩)
    · exact hfree h
    · exact hfirst j hp hj
  · obtain ⟨l, rfl⟩ := exists_position hperm j
    have hne : l ≠ k := fun he => hj (he ▸ rfl)
    have hlt : k < l := lt_of_le_of_ne (not_lt.mp (hfirst l hp)) hne.symm
    exact (verdict_of_serial hout l).eq_duplicate hp (Or.inr ⟨k, hlt, hk⟩)

theorem map_get_perm (hperm : order.Perm (List.finRange cs.length)) : (order.map cs.get).Perm cs := by
  have h := hperm.map cs.get
  rwa [List.map_get_finRange] at h

theorem holds_of_serial (hperm : order.Perm (List.finRange cs.length)) (p : Pair) :
    (r.after (order.map cs.get)).Holds p ↔ r.Holds p ∨ ∃ c ∈ cs, c.Names p := by
  rw [Registry.holds_after]
  exact or_congr_right (exists_congr fun c => and_congr_left fun _ => (map_get_perm hperm).mem_iff)

end Order

end Pool
end SerialAudit
