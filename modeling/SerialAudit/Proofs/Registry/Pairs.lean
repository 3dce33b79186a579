import Mathlib.Data.List.Nodup
import SerialAudit.Registry

/-! The registry as a set of pairs of an id and a version, and what one registration adds to it.

* `Registry.Pair`, `Registry.Holds` : a pair, and that a registry holds it;
* `Registry.ids` : the ids in the order of their entries;
* `Registry.WellFormed` : one entry for each id, none of them empty, the versions ascending;
* `Registry.Reachable` : the registries that arise from the empty one by registrations.

A registration adds its pair and nothing else (`holds_register`), puts a new id at the end
(`ids_register`), and keeps the registry well formed (`WellFormed.register`). In a well-formed registry
the pairs that are held are those listed by `toPairs`, each once. -/
namespace SerialAudit
set_option autoImplicit false

namespace Registry

/-! ## Versions of one id -/

theorem pairwise_insertVersion {v : Int} {ws : List Int} (h : ws.Pairwise (· < ·)) :
    (insertVersion v ws).Pairwise (· < ·) := by
  induction ws with
  | nil => exact List.pairwise_singleton _ _
  | cons w ws ih =>
    obtain ⟨hw, hws⟩ := List.pairwise_cons.mp h
    by_cases heq : v = w
    · simpa [insertVersion, heq] using ⟨hw, hws⟩
    by_cases hlt : v < w
    · simp only [insertVersion, heq, hlt, if_false, if_true]
      refine List.pairwise_cons.mpr ⟨fun x hx => ?_, h⟩
      rcases List.mem_cons.mp hx with rfl | hx
      · exact hlt
      · exact Int.lt_trans hlt (hw x hx)
    · simp only [insertVersion, heq, hlt, if_false]
      refine List.pairwise_cons.mpr ⟨fun x hx => ?_, ih hws⟩
      rcases (mem_insertVersion v x ws).mp hx with rfl | hx
      · omega
      · exact hw x hx

theorem insertVersion_ne_nil (v : Int) (ws : List Int) : insertVersion v ws ≠ [] :=
  List.ne_nil_of_mem ((mem_insertVersion v v ws).mpr (Or.inl rfl))

/-! ## Pairs that are held -/

abbrev Pair := String × Int

def Holds (r : Registry) (p : Pair) : Prop := r.contains p.1 p.2 = true

instance (r : Registry) (p : Pair) : Decidable (r.Holds p) :=
  inferInstanceAs (Decidable (r.contains p.1 p.2 = true))

theorem not_holds_empty (p : Pair) : ¬ empty.Holds p := by simp [Holds, contains, versions, empty]

theorem lookup_insertInto (id i : String) (v : Int) (es : List (String × List Int)) :
    (insertInto id v es).lookup i =
      if i = id then some (insertVersion v ((es.lookup id).getD [])) else es.lookup i := by
  induction es with
  | nil => by_cases h : i = id <;> simp [insertInto, insertVersion, h]
  | cons e es ih =>
    obtain ⟨j, vs⟩ := e
    by_cases hj : j = id
    · subst hj
      by_cases hi : i = j
      · simp [insertInto, hi]
      · have hb : (i == j) = false := beq_eq_false_iff_ne.mpr hi
        simp [insertInto, List.lookup_cons, hi, hb]
    · by_cases hi : i = id
      · have hji : (id == j) = false := by simpa using Ne.symm hj
        subst hi
        simp [insertInto, List.lookup_cons, hj, hji, ih]
      · simp only [insertInto, hj, if_false, List.lookup_cons, ih, hi]

theorem register_of_holds {r : Registry} {p : Pair} (h : r.Holds p) :
    r.register p.1 p.2 = (false, r) := by
  have held : r.contains p.1 p.2 = true := h
  rw [register, if_pos held]

theorem register_of_not_holds {r : Registry} {p : Pair} (h : ¬ r.Holds p) :
    r.register p.1 p.2 = (true, ⟨insertInto p.1 p.2 r.entries⟩) := by
  have free : ¬ r.contains p.1 p.2 = true := h
  rw [register, if_neg free]

theorem holds_insertInto (r : Registry) (p q : Pair) :
    (⟨insertInto p.1 p.2 r.entries⟩ : Registry).Holds q ↔ q = p ∨ r.Holds q := by
  obtain ⟨id, v⟩ := p
  obtain ⟨i, w⟩ := q
  have hlookup := lookup_insertInto id i v r.entries
  by_cases hi : i = id
  · subst hi
    simp [Holds, contains, versions, hlookup, mem_insertVersion]
  · simp [Holds, contains, versions, hlookup, hi]

theorem holds_register (r : Registry) (p q : Pair) :
    (r.register p.1 p.2).2.Holds q ↔ q = p ∨ r.Holds q := by
  by_cases held : r.Holds p
  · rw [register_of_holds held]
    constructor
    · exact Or.inr
    · rintro (rfl | h)
      · exact held
      · exact h
  · rw [register_of_not_holds held]
    exact holds_insertInto r p q

/-! ## Ids -/

def ids (r : Registry) : List String := r.entries.map Prod.fst

theorem mem_ids_of_holds {r : Registry} {p : Pair} (h : r.Holds p) : p.1 ∈ r.ids := by
  cases hl : r.entries.lookup p.1 with
  | none => simp [Holds, contains, versions, hl] at h
  | some vs =>
    obtain ⟨before, rest, he, -⟩ := List.lookup_eq_some_iff.mp hl
    simp [ids, he]

theorem map_fst_insertInto (id : String) (v : Int) (es : List (String × List Int)) :
    (insertInto id v es).map Prod.fst =
      if id ∈ es.map Prod.fst then es.map Prod.fst else es.map Prod.fst ++ [id] := by
  induction es with
  | nil => simp [insertInto]
  | cons e es ih =>
    obtain ⟨j, vs⟩ := e
    by_cases hj : j = id
    · simp [insertInto, hj]
    · simp only [insertInto, hj, if_false, List.map_cons, ih, List.mem_cons, Ne.symm hj, false_or]
      split <;> simp

theorem ids_register (r : Registry) (p : Pair) :
    (r.register p.1 p.2).2.ids = if p.1 ∈ r.ids then r.ids else r.ids ++ [p.1] := by
  by_cases held : r.Holds p
  · rw [register_of_holds held, if_pos (mem_ids_of_holds held)]
  · rw [register_of_not_holds held]
    exact map_fst_insertInto p.1 p.2 r.entries

/-! ## Well-formed registries -/

structure WellFormed (r : Registry) : Prop where
  ids_nodup : r.ids.Nodup
  ascending : ∀ e ∈ r.entries, e.2.Pairwise (· < ·)
  inhabited : ∀ e ∈ r.entries, e.2 ≠ []

theorem WellFormed.of_empty : empty.WellFormed := by
  constructor <;> simp [ids, empty]

/-- What an entry is after an insertion: an old one, or one into which the version was put. -/
theorem mem_insertInto {id : String} {v : Int} {es : List (String × List Int)}
    {e : String × List Int} (h : e ∈ insertInto id v es) :
    e ∈ es ∨ e = (id, [v]) ∨ ∃ vs, (id, vs) ∈ es ∧ e = (id, insertVersion v vs) := by
  induction es with
  | nil => simpa [insertInto] using h
  | cons f es ih =>
    obtain ⟨j, vs⟩ := f
    by_cases hj : j = id
    · subst hj
      simp only [insertInto, if_true, List.mem_cons] at h
      rcases h with rfl | h
      · exact Or.inr (Or.inr ⟨vs, List.mem_cons_self .., rfl⟩)
      · exact Or.inl (List.mem_cons_of_mem _ h)
    · simp only [insertInto, hj, if_false, List.mem_cons] at h
      rcases h with rfl | h
      · exact Or.inl (List.mem_cons_self ..)
      · rcases ih h with h | h | ⟨ws, hw, h⟩
        · exact Or.inl (List.mem_cons_of_mem _ h)
        · exact Or.inr (Or.inl h)
        · exact Or.inr (Or.inr ⟨ws, List.mem_cons_of_mem _ hw, h⟩)

theorem WellFormed.register {r : Registry} (h : r.WellFormed) (p : Pair) :
    (r.register p.1 p.2).2.WellFormed := by
  by_cases held : r.Holds p
  · rw [register_of_holds held]
    exact h
  have hids := ids_register r p
  rw [register_of_not_holds held] at hids ⊢
  constructor
  · rw [hids]
    split
    · exact h.ids_nodup
    · exact List.nodup_append.mpr ⟨h.ids_nodup, List.nodup_singleton _, by grind⟩
  · intro e he
    rcases mem_insertInto he with he | rfl | ⟨vs, hvs, rfl⟩
    · exact h.ascending e he
    · exact List.pairwise_singleton _ _
    · exact pairwise_insertVersion (h.ascending _ hvs)
  · intro e he
    rcases mem_insertInto he with he | rfl | ⟨vs, -, rfl⟩
    · exact h.inhabited e he
    · simp
    · exact insertVersion_ne_nil p.2 vs

theorem lookup_of_mem {es : List (String × List Int)} (hes : (es.map Prod.fst).Nodup)
    {e : String × List Int} (he : e ∈ es) : es.lookup e.1 = some e.2 := by
  induction es with
  | nil => exact absurd he List.not_mem_nil
  | cons f es ih =>
    obtain ⟨hf, hes⟩ := List.nodup_cons.mp hes
    rcases List.mem_cons.mp he with rfl | he
    · exact List.lookup_cons_self
    · have hne : (e.1 == f.1) = false :=
        beq_eq_false_iff_ne.mpr fun h => hf (h ▸ List.mem_map_of_mem he)
      rw [List.lookup_cons, hne]
      exact ih hes he

theorem WellFormed.mem_toPairs {r : Registry} (h : r.WellFormed) (p : Pair) :
    p ∈ r.toPairs ↔ r.Holds p := by
  simp only [toPairs, Holds, contains, versions, List.mem_flatMap, List.mem_map, List.contains_iff_mem]
  constructor
  · rintro ⟨e, he, v, hv, rfl⟩
    rw [lookup_of_mem h.ids_nodup he]
    exact hv
  · intro hv
    cases hl : r.entries.lookup p.1 with
    | none => simp [hl] at hv
    | some vs =>
      obtain ⟨before, rest, he, -⟩ := List.lookup_eq_some_iff.mp hl
      exact ⟨(p.1, vs), by simp [he], p.2, by simpa [hl] using hv, rfl⟩

theorem WellFormed.nodup_toPairs {r : Registry} (h : r.WellFormed) : r.toPairs.Nodup := by
  refine List.nodup_flatMap.mpr ⟨fun e he => ?_, ?_⟩
  · have hne : e.2.Nodup := (h.ascending e he).imp fun hlt => Int.ne_of_lt hlt
    exact hne.map fun _ _ heq => (Prod.mk.inj heq).2
  · refine (List.pairwise_map.mp h.ids_nodup).imp fun hne p hp hq => ?_
    obtain ⟨v, -, rfl⟩ := List.mem_map.mp hp
    obtain ⟨w, -, hw⟩ := List.mem_map.mp hq
    exact hne (congrArg Prod.fst hw).symm

theorem WellFormed.toPairs_perm {r s : Registry} (hr : r.WellFormed) (hs : s.WellFormed)
    (h : ∀ p, r.Holds p ↔ s.Holds p) : r.toPairs.Perm s.toPairs :=
  (List.perm_ext_iff_of_nodup hr.nodup_toPairs hs.nodup_toPairs).mpr fun p => by
    rw [hr.mem_toPairs, hs.mem_toPairs, h]

/-- A registration of a free pair lists that pair besides the old ones. -/
theorem WellFormed.toPairs_register {r : Registry} (h : r.WellFormed) {p : Pair} (hp : ¬ r.Holds p) :
    (r.register p.1 p.2).2.toPairs.Perm (p :: r.toPairs) := by
  have hnew : p ∉ r.toPairs := fun hm => hp ((h.mem_toPairs p).mp hm)
  refine (List.perm_ext_iff_of_nodup (h.register p).nodup_toPairs
    (List.nodup_cons.mpr ⟨hnew, h.nodup_toPairs⟩)).mpr fun q => ?_
  rw [(h.register p).mem_toPairs, holds_register, List.mem_cons, h.mem_toPairs]

/-! ## Reachable registries -/

inductive Reachable : Registry → Prop
  | empty : Reachable .empty
  | register {r : Registry} (h : Reachable r) (p : Pair) : Reachable (r.register p.1 p.2).2

theorem Reachable.wellFormed {r : Registry} (h : r.Reachable) : r.WellFormed := by
  induction h with
  | empty => exact WellFormed.of_empty
  | register _ p ih => exact ih.register p

end Registry
end SerialAudit
