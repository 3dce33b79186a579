import Mathlib.Algebra.GroupWithZero.Nat
import Mathlib.Data.List.Nodup
import SerialAudit.Proofs.Registry.Pairs

/-! A registry in the hands of a client answers as a set of pairs does.

* `Registry.Op`, `Registry.Answer` : what a client does and what it is told; the snapshots that it was
  given are its own, to look at and to alter;
* `Registry.Store` : anything that can be asked as a registry is;
* `Registry.Store.run` : some operations one after the other, with their answers;
* `Registry.Ledger` : a set of pairs, each listed once where it was added;
* `Registry.Matches` : a registry holds the pairs of a ledger, with the ids in their order.

One operation on a matching registry and ledger gives the same answer and keeps them matching
(`Matches.simulates`), so all operations of a run do (`answers_eq_ledger`). -/
namespace SerialAudit
set_option autoImplicit false

namespace Registry

/-! ## Operations -/

abbrev View := List (String × List Int)

inductive Op where
  | register (p : Pair)
  | contains (p : Pair)
  | size
  | snapshot
  | look (k : Nat)
  | alter (k : Nat) (view : View)

inductive Answer where
  | flag (b : Bool)
  | count (n : Nat)
  | view (view : View)
  | kept (view : Option View)
  | done
  deriving DecidableEq

structure Store (σ : Type) where
  empty : σ
  register : σ → Pair → Bool × σ
  contains : σ → Pair → Bool
  size : σ → Nat
  snapshot : σ → View

/-- A store and the snapshots that a client has got, as they now are. -/
structure Client (σ : Type) where
  store : σ
  snapshots : List View

namespace Store

variable {σ τ : Type}

def start (S : Store σ) : Client σ := ⟨S.empty, []⟩

def step (S : Store σ) (s : Client σ) : Op → Answer × Client σ
  | .register p => (.flag (S.register s.store p).1, { s with store := (S.register s.store p).2 })
  | .contains p => (.flag (S.contains s.store p), s)
  | .size => (.count (S.size s.store), s)
  | .snapshot =>
    (.view (S.snapshot s.store), { s with snapshots := s.snapshots ++ [S.snapshot s.store] })
  | .look k => (.kept s.snapshots[k]?, s)
  | .alter k view => (.done, { s with snapshots := s.snapshots.set k view })

def run (S : Store σ) (s : Client σ) : List Op → List Answer × Client σ
  | [] => ([], s)
  | op :: ops =>
    let rest := S.run (S.step s op).2 ops
    ((S.step s op).1 :: rest.1, rest.2)

def answers (S : Store σ) (ops : List Op) : List Answer := (S.run S.start ops).1

def after (S : Store σ) (ops : List Op) : σ := (S.run S.start ops).2.store

theorem run_append (S : Store σ) (s : Client σ) (xs ys : List Op) :
    (S.run s (xs ++ ys)).2 = (S.run (S.run s xs).2 ys).2 := by
  induction xs generalizing s with
  | nil => rfl
  | cons op ops ih => exact ih _

/-! ## Simulation -/

/-- Related stores give the same answers, and registering keeps them related. -/
structure Simulates (S : Store σ) (T : Store τ) (R : σ → τ → Prop) : Prop where
  empty : R S.empty T.empty
  register {s : σ} {t : τ} (h : R s t) (p : Pair) :
    (S.register s p).1 = (T.register t p).1 ∧ R (S.register s p).2 (T.register t p).2
  contains {s : σ} {t : τ} (h : R s t) (p : Pair) : S.contains s p = T.contains t p
  size {s : σ} {t : τ} (h : R s t) : S.size s = T.size t
  snapshot {s : σ} {t : τ} (h : R s t) : S.snapshot s = T.snapshot t

variable {S : Store σ} {T : Store τ} {R : σ → τ → Prop} {s : Client σ} {t : Client τ}

theorem Simulates.step (hR : Simulates S T R) (h : R s.store t.store)
    (hkept : s.snapshots = t.snapshots) (op : Op) :
    (S.step s op).1 = (T.step t op).1 ∧ R (S.step s op).2.store (T.step t op).2.store ∧
      (S.step s op).2.snapshots = (T.step t op).2.snapshots := by
  cases op with
  | register p =>
    obtain ⟨hflag, hnext⟩ := hR.register h p
    exact ⟨congrArg Answer.flag hflag, hnext, hkept⟩
  | contains p => exact ⟨congrArg Answer.flag (hR.contains h p), h, hkept⟩
  | size => exact ⟨congrArg Answer.count (hR.size h), h, hkept⟩
  | snapshot =>
    refine ⟨congrArg Answer.view (hR.snapshot h), h, ?_⟩
    show s.snapshots ++ [S.snapshot s.store] = t.snapshots ++ [T.snapshot t.store]
    rw [hkept, hR.snapshot h]
  | look k => exact ⟨congrArg (fun views => Answer.kept views[k]?) hkept, h, hkept⟩
  | alter k view => exact ⟨rfl, h, congrArg (fun views => views.set k view) hkept⟩

theorem Simulates.run (hR : Simulates S T R) (h : R s.store t.store)
    (hkept : s.snapshots = t.snapshots) (ops : List Op) :
    (S.run s ops).1 = (T.run t ops).1 ∧ R (S.run s ops).2.store (T.run t ops).2.store := by
  induction ops generalizing s t with
  | nil => exact ⟨rfl, h⟩
  | cons op ops ih =>
    obtain ⟨hanswer, hnext, hkept'⟩ := hR.step h hkept op
    obtain ⟨hanswers, hlast⟩ := ih hnext hkept'
    exact ⟨congrArg₂ List.cons hanswer hanswers, hlast⟩

end Store

def store : Store Registry where
  empty := .empty
  register r p := r.register p.1 p.2
  contains r p := r.contains p.1 p.2
  size := size
  snapshot := entries

/-! ## Ledgers -/

/-- A set of pairs, in the order in which they were added. -/
structure Ledger where
  pairs : List Pair
  nodup : pairs.Nodup

namespace Ledger

def empty : Ledger := ⟨[], List.nodup_nil⟩

def add (l : Ledger) (p : Pair) (h : p ∉ l.pairs) : Ledger :=
  ⟨l.pairs ++ [p], List.nodup_append.mpr ⟨l.nodup, List.nodup_singleton p,
    fun _ hq _ hp he => h (List.mem_singleton.mp hp ▸ he ▸ hq)⟩⟩

def ids (l : Ledger) : List String := (l.pairs.map Prod.fst).eraseDups

/-- The versions of an id in ascending order. -/
def versions (l : Ledger) (id : String) : List Int :=
  ((l.pairs.filter fun p => p.1 = id).map Prod.snd).mergeSort fun v w => v ≤ w

def view (l : Ledger) : View := l.ids.map fun id => (id, l.versions id)

def store : Store Ledger where
  empty := empty
  register l p := if h : p ∈ l.pairs then (false, l) else (true, l.add p h)
  contains l p := p ∈ l.pairs
  size l := l.pairs.length
  snapshot := view

theorem mem_versions (l : Ledger) (id : String) (v : Int) :
    v ∈ l.versions id ↔ (id, v) ∈ l.pairs := by
  simp only [versions, (List.mergeSort_perm _ _).mem_iff, List.mem_map, List.mem_filter,
    decide_eq_true_eq]
  constructor
  · rintro ⟨⟨i, w⟩, ⟨hp, rfl⟩, rfl⟩
    exact hp
  · exact fun hp => ⟨(id, v), ⟨hp, rfl⟩, rfl⟩

theorem ascending_versions (l : Ledger) (id : String) : (l.versions id).Pairwise (· < ·) := by
  have hsorted : (l.versions id).Pairwise (· ≤ ·) := by
    refine (List.pairwise_mergeSort ?_ ?_ _).imp fun h => of_decide_eq_true h
    · intro u v w huv hvw
      exact decide_eq_true (Int.le_trans (of_decide_eq_true huv) (of_decide_eq_true hvw))
    · intro v w
      simpa using Int.le_total v w
  have hnodup : (l.versions id).Nodup := by
    refine (List.mergeSort_perm _ _).nodup_iff.mpr ?_
    refine List.Nodup.map_on (fun p hp q hq he => ?_) (l.nodup.filter _)
    -- pairs of one id differ in their versions
    have hpid := of_decide_eq_true (List.mem_filter.mp hp).2
    have hqid := of_decide_eq_true (List.mem_filter.mp hq).2
    exact Prod.ext (hpid.trans hqid.symm) he
  exact (hsorted.and hnodup).imp fun h => Int.lt_iff_le_and_ne.mpr h

theorem ids_add (l : Ledger) (p : Pair) (h : p ∉ l.pairs) :
    (l.add p h).ids = if p.1 ∈ l.ids then l.ids else l.ids ++ [p.1] := by
  have hids : (l.add p h).ids = l.ids ++ ([p.1].removeAll (l.pairs.map Prod.fst)).eraseDups := by
    rw [ids, add, List.map_append, List.map_singleton, List.eraseDups_append, ids]
  rw [hids, ids]
  by_cases hid : p.1 ∈ l.pairs.map Prod.fst
  · simp [List.removeAll, hid]
  · simp [List.removeAll, hid, List.eraseDups_cons]

theorem prefix_step (s : Client Ledger) (op : Op) :
    s.store.pairs <+: (store.step s op).2.store.pairs := by
  cases op with
  | register p =>
    by_cases h : p ∈ s.store.pairs
    · simp [Store.step, store, h]
    · simp [Store.step, store, h, add]
  | contains | size | snapshot | look | alter => exact List.prefix_rfl

theorem prefix_run (s : Client Ledger) (ops : List Op) :
    s.store.pairs <+: (store.run s ops).2.store.pairs := by
  induction ops generalizing s with
  | nil => exact List.prefix_rfl
  | cons op ops ih => exact (prefix_step s op).trans (ih _)

/-- What a list of ids and versions says about a set of pairs. -/
structure Shows (l : Ledger) (view : View) : Prop where
  ids : view.map Prod.fst = (l.pairs.map Prod.fst).eraseDups
  ascending : ∀ e ∈ view, e.2.Pairwise (· < ·)
  inhabited : ∀ e ∈ view, e.2 ≠ []
  versions : ∀ e ∈ view, ∀ v, v ∈ e.2 ↔ (e.1, v) ∈ l.pairs

theorem shows_view (l : Ledger) : l.Shows l.view := by
  constructor
  · rw [view, List.map_map]
    exact List.map_id _
  · intro e he
    obtain ⟨id, -, rfl⟩ := List.mem_map.mp he
    exact l.ascending_versions id
  · intro e he
    obtain ⟨id, hid, rfl⟩ := List.mem_map.mp he
    obtain ⟨p, hp, rfl⟩ := List.mem_map.mp (List.mem_eraseDups.mp hid)
    exact List.ne_nil_of_mem ((l.mem_versions p.1 p.2).mpr hp)
  · intro e he v
    obtain ⟨id, -, rfl⟩ := List.mem_map.mp he
    exact l.mem_versions id v

end Ledger

/-! ## Registries and ledgers -/

structure Matches (r : Registry) (l : Ledger) : Prop where
  wellFormed : r.WellFormed
  holds_iff : ∀ p, r.Holds p ↔ p ∈ l.pairs
  ids_eq : r.ids = l.ids

theorem WellFormed.versions_of_mem {r : Registry} (h : r.WellFormed) {e : String × List Int}
    (he : e ∈ r.entries) : r.versions e.1 = e.2 := by
  rw [versions, lookup_of_mem h.ids_nodup he, Option.getD_some]

theorem WellFormed.entries_eq {r : Registry} (h : r.WellFormed) :
    r.entries = r.ids.map fun id => (id, r.versions id) := by
  rw [ids, List.map_map]
  refine (List.map_id' r.entries).symm.trans (List.map_congr_left fun e he => ?_)
  exact Prod.ext rfl (h.versions_of_mem he).symm

namespace Matches

variable {r : Registry} {l : Ledger}

theorem register (h : Matches r l) (p : Pair) :
    (r.register p.1 p.2).1 = (Ledger.store.register l p).1 ∧
      Matches (r.register p.1 p.2).2 (Ledger.store.register l p).2 := by
  by_cases hp : p ∈ l.pairs
  · have hstore : Ledger.store.register l p = (false, l) := dif_pos hp
    rw [hstore, register_of_holds ((h.holds_iff p).mpr hp)]
    exact ⟨rfl, h⟩
  · have hstore : Ledger.store.register l p = (true, l.add p hp) := dif_neg hp
    have hfree : ¬ r.Holds p := fun held => hp ((h.holds_iff p).mp held)
    rw [hstore]
    refine ⟨by rw [register_of_not_holds hfree], h.wellFormed.register p, fun q => ?_, ?_⟩
    · rw [holds_register, h.holds_iff, Ledger.add, List.mem_append, List.mem_singleton, or_comm]
    · rw [ids_register, h.ids_eq, Ledger.ids_add]

theorem toPairs_perm (h : Matches r l) : r.toPairs.Perm l.pairs :=
  (List.perm_ext_iff_of_nodup h.wellFormed.nodup_toPairs l.nodup).mpr fun p => by
    rw [h.wellFormed.mem_toPairs, h.holds_iff]

theorem entries_eq_view (h : Matches r l) : r.entries = l.view := by
  rw [h.wellFormed.entries_eq, h.ids_eq, Ledger.view]
  refine List.map_congr_left fun id hid => congrArg (Prod.mk id) ?_
  -- two ascending lists with the same versions
  have hasc : (r.versions id).Pairwise (· < ·) := by
    obtain ⟨e, he, rfl⟩ := List.mem_map.mp (h.ids_eq ▸ hid)
    rw [h.wellFormed.versions_of_mem he]
    exact h.wellFormed.ascending e he
  have hmem : ∀ v, v ∈ r.versions id ↔ v ∈ l.versions id := fun v => by
    rw [l.mem_versions, ← h.holds_iff]
    exact List.contains_iff_mem.symm
  refine List.Perm.eq_of_pairwise (fun v w _ _ hvw hwv => absurd hvw (Int.lt_asymm hwv)) hasc
    (l.ascending_versions id) ?_
  exact (List.perm_ext_iff_of_nodup (hasc.imp Int.ne_of_lt)
    ((l.ascending_versions id).imp Int.ne_of_lt)).mpr hmem

theorem simulates : store.Simulates Ledger.store Matches where
  empty := ⟨.of_empty, fun p => by simp [not_holds_empty, Ledger.store, Ledger.empty, store], rfl⟩
  register := register
  contains h p := by
    show Registry.contains _ p.1 p.2 = decide (p ∈ _)
    rw [Bool.eq_iff_iff, decide_eq_true_eq]
    exact h.holds_iff p
  size h := (size_eq_length_toPairs _).trans h.toPairs_perm.length_eq
  snapshot := entries_eq_view

end Matches

/-- Whatever a client does with a registry that was empty at first, and with the snapshots that it gets,
the registry answers as a set of pairs: it tells whether a pair was new and adds it, how many pairs
there are, and lists them by their ids. No pair is ever lost. -/
theorem answers_eq_ledger (ops : List Op) :
    store.answers ops = Ledger.store.answers ops ∧
      (let l := Ledger.store.after ops
       l.Shows l.view ∧ l.pairs.length = (l.view.map fun e => e.2.length).sum ∧
         ∀ more, l.pairs <+: (Ledger.store.after (ops ++ more)).pairs) := by
  have hstart : Matches store.start.store Ledger.store.start.store := Matches.simulates.empty
  obtain ⟨hanswers, hafter⟩ := Matches.simulates.run hstart rfl ops
  change Matches (store.after ops) (Ledger.store.after ops) at hafter
  refine ⟨hanswers, Ledger.shows_view _, ?_, fun more => ?_⟩
  · have hsize : (store.after ops).size = ((store.after ops).entries.map fun e => e.2.length).sum := by
      rw [size, List.sum, List.foldr_map]
    rw [← hafter.entries_eq_view]
    exact (Matches.simulates.size hafter).symm.trans hsize
  · rw [Store.after, Store.after, Store.run_append]
    exact Ledger.prefix_run _ more

end Registry
end SerialAudit
