import Mathlib.Data.List.Basic
import SerialAudit.Document.Pages
import SerialAudit.Proofs.Text.Encoding

/-! Texts that come back from a file.

* `Feed.Brings` : the characters that are still to come from a file in the middle of being read.

Blocks and pages cut a file in two ways that have no common measure, yet no character gets lost between
them: every page takes its characters off what is still to come (`Feed.Brings.page`). So a text of
admitted characters comes back from its octets as it is (`ofOctets_encode`), unless a carriage return in
it becomes a line feed. -/
namespace SerialAudit.Document
set_option autoImplicit false

open Text

/-! ## Blocks -/

theorem unifyBreaks_eq_self {cs : List Char} (h : '\r' ∉ cs) : unifyBreaks cs = cs := by
  induction cs with
  | nil => rfl
  | cons c cs ih =>
    obtain ⟨hc, hcs⟩ := not_or.mp (mt List.mem_cons.mpr h)
    rw [unifyBreaks, ih hcs, if_neg (Ne.symm hc)]
    rintro ds rfl
    exact absurd rfl hc

namespace Feed

structure Brings (f : Feed) (cs : List Char) : Prop where
  not_held : f.held = false
  coming : ∃ ds, Utf8.feed? f.pending f.octets = some (ds, none) ∧ f.ready ++ ds = cs ∧
    (f.finished = true → ds = [])
  no_return : '\r' ∉ cs

variable {f : Feed} {cs : List Char}

theorem brings_encode (h : '\r' ∉ cs) : (ofOctets (Utf8.encode cs)).Brings cs :=
  ⟨rfl, ⟨cs, Utf8.feed_encode cs, rfl, fun hfinished => absurd hfinished Bool.false_ne_true⟩, h⟩

theorem need_pos (f : Feed) (wanted : Nat) : 0 < f.need wanted := by
  unfold need blockSize
  split <;> omega

theorem decodeBlock_eq {wanted : Nat} {first : List Char} {pending : Option Utf8.Pending}
    (hheld : f.held = false)
    (hfeed : Utf8.feed? f.pending (f.octets.take (f.need wanted)) = some (first, pending))
    (hpending : f.octets = [] → pending = none) (hfirst : '\r' ∉ first) :
    ∃ density, f.decodeBlock wanted = .ok ⟨f.octets.drop (f.need wanted), pending, false,
      f.ready ++ first, f.octets.isEmpty && first.isEmpty, density⟩ := by
  have hempty : (f.octets.take (f.need wanted)).isEmpty = f.octets.isEmpty := by
    have hneed := f.need_pos wanted
    cases hoctets : f.octets with
    | nil => rw [List.take_nil]
    | cons o os => rw [← Nat.succ_pred_eq_of_pos hneed]; rfl
  have hdrop : f.octets.drop (f.octets.take (f.need wanted)).length = f.octets.drop (f.need wanted) := by
    rw [List.length_take]
    rcases Nat.le_total (f.need wanted) f.octets.length with hle | hle
    · rw [Nat.min_eq_left hle]
    · rw [Nat.min_eq_right hle, List.drop_length, List.drop_eq_nil_of_le hle]
  have hlast : first.getLast? ≠ some '\r' := fun hc => hfirst (List.mem_of_getLast? hc)
  have hwait : (f.octets.isEmpty && pending.isSome) = false := by
    cases hoctets : f.octets with
    | nil => rw [hpending hoctets]; rfl
    | cons o os => rfl
  rw [decodeBlock]
  simp only [hfeed, hempty, hwait, hheld, hlast, Bool.false_and, Bool.false_or, Bool.and_false,
    decide_false, Bool.false_eq_true, if_false, unifyBreaks_eq_self hfirst, hdrop]
  exact ⟨_, rfl⟩

/-- A block leaves what is to come as it was. It takes octets as long as there are any, and finds the end
of the file after that. -/
theorem Brings.decodeBlock (h : f.Brings cs) (wanted : Nat) :
    ∃ f', f.decodeBlock wanted = .ok f' ∧ f'.Brings cs ∧
      (f'.finished = true ∨ f'.octets.length < f.octets.length) := by
  obtain ⟨ds, hfeed, hready, -⟩ := h.coming
  -- the octets are read as one part after another
  rw [← List.take_append_drop (f.need wanted) f.octets, Utf8.feed_append] at hfeed
  obtain ⟨⟨first, pending⟩, hfirst, hrest⟩ := Option.bind_eq_some_iff.mp hfeed
  obtain ⟨⟨second, last⟩, hsecond, heq⟩ := Option.map_eq_some_iff.mp hrest
  obtain ⟨rfl, rfl⟩ : first ++ second = ds ∧ last = none := by simpa using heq
  have hno : '\r' ∉ first := by
    have hcs := h.no_return
    rw [← hready] at hcs
    simp only [List.mem_append, not_or] at hcs
    exact hcs.2.1
  have hpending : f.octets = [] → pending = none := by
    intro hnil
    rw [hnil, List.drop_nil] at hsecond
    simpa [Utf8.feed?] using congrArg (Option.map Prod.snd) hsecond
  obtain ⟨density, hblock⟩ := decodeBlock_eq h.not_held hfirst hpending hno
  refine ⟨_, hblock, ⟨rfl, ⟨second, hsecond, by rw [List.append_assoc, hready], ?_⟩, h.no_return⟩, ?_⟩
  · intro hfinished
    have hnil : f.octets = [] := List.isEmpty_iff.mp (Bool.and_eq_true_iff.mp hfinished).1
    rw [hnil, List.drop_nil] at hsecond
    simpa [Utf8.feed?] using (congrArg (Option.map Prod.fst) hsecond).symm
  · cases hoctets : f.octets with
    | nil =>
      left
      rw [hoctets, List.take_nil] at hfirst
      have hnone : [] = first := by simpa [Utf8.feed?] using congrArg (Option.map Prod.fst) hfirst
      rw [← hnone]
      rfl
    | cons o os =>
      right
      have hneed := f.need_pos wanted
      rw [List.length_drop, List.length_cons]
      omega

/-! ## Pages -/

theorem Brings.pageFrom {fuel : Nat} (h : f.Brings cs)
    (hfuel : f.finished = true ∧ 1 ≤ fuel ∨ f.octets.length + 2 ≤ fuel) :
    ∃ f', Feed.pageFrom fuel f = .ok (cs.take pageSize, f') ∧ f'.Brings (cs.drop pageSize) := by
  induction fuel generalizing f with
  | zero => omega
  | succ fuel ih =>
    rw [Feed.pageFrom]
    by_cases hfull : (f.finished || decide (pageSize ≤ f.ready.length)) = true
    · rw [if_pos hfull]
      obtain ⟨ds, hfeed, hready, hfinished⟩ := h.coming
      have hcut : f.ready.take pageSize = cs.take pageSize ∧
          f.ready.drop pageSize ++ ds = cs.drop pageSize := by
        rcases Bool.or_eq_true_iff.mp hfull with hend | hlength
        · rw [← hready, hfinished hend, List.append_nil, List.append_nil]
          exact ⟨rfl, rfl⟩
        · have hle := of_decide_eq_true hlength
          rw [← hready, List.take_append_of_le_length hle, List.drop_append_of_le_length hle]
          exact ⟨rfl, rfl⟩
      rw [hcut.1]
      exact ⟨_, rfl, h.not_held, ⟨ds, hfeed, hcut.2, hfinished⟩,
        fun hmem => h.no_return (List.mem_of_mem_drop hmem)⟩
    · rw [if_neg hfull]
      obtain ⟨f', hblock, hbrings, hless⟩ := h.decodeBlock (pageSize - f.ready.length)
      rw [hblock]
      refine ih hbrings ?_
      have hmore : f.octets.length + 2 ≤ fuel + 1 :=
        hfuel.resolve_left fun hend => hfull (by rw [hend.1]; rfl)
      rcases hless with hend | hlength
      · exact Or.inl ⟨hend, by omega⟩
      · right
        omega

theorem Brings.page (h : f.Brings cs) :
    ∃ f', f.page = .ok (cs.take pageSize, f') ∧ f'.Brings (cs.drop pageSize) :=
  h.pageFrom (Or.inr (by omega))

theorem Brings.pagesFrom {fuel : Nat} (h : f.Brings cs) (hfuel : cs.length < fuel) :
    ∃ chunks : List (List Char), Feed.pagesFrom fuel f = chunks.map .ok ∧ chunks.flatten = cs := by
  induction fuel generalizing f cs with
  | zero => omega
  | succ fuel ih =>
    obtain ⟨f', hpage, hbrings⟩ := h.page
    rw [Feed.pagesFrom, hpage]
    cases cs with
    | nil => exact ⟨[], rfl, rfl⟩
    | cons c cs =>
      have hshorter : ((c :: cs).drop pageSize).length < fuel := by
        rw [List.length_drop, List.length_cons, pageSize]
        rw [List.length_cons] at hfuel
        omega
      obtain ⟨chunks, hpages, hflat⟩ := ih hbrings hshorter
      refine ⟨(c :: cs).take pageSize :: chunks, ?_, ?_⟩
      · rw [List.map_cons, ← hpages]
        rfl
      · rw [List.flatten_cons, hflat, List.take_append_drop]

theorem pages_encode (h : '\r' ∉ cs) : ∃ chunks : List (List Char),
    pages (Utf8.encode cs) = chunks.map .ok ∧ chunks.flatten = cs :=
  (brings_encode h).pagesFrom (Nat.lt_succ_of_le (Utf8.length_le_length_encode cs))

end Feed

/-! ## Texts -/

namespace Source

theorem ofPages_map_ok {chunks : List (List Char)} (h : ∀ c ∈ chunks.flatten, isAdmitted c = true) :
    ofPages (chunks.map .ok) = ⟨chunks.flatten, none⟩ := by
  induction chunks with
  | nil => rfl
  | cons cs chunks ih =>
    rw [List.flatten_cons] at h
    have hcs : cs.all isAdmitted = true :=
      List.all_eq_true.mpr fun c hc => h c (List.mem_append_left _ hc)
    rw [List.map_cons, ofPages, if_pos hcs, ih fun c hc => h c (List.mem_append_right _ hc)]
    rfl

theorem ofText_eq {cs : List Char} (h : ∀ c ∈ cs, isAdmitted c = true) : ofText cs = ⟨cs, none⟩ := by
  have hcs : cs.all isAdmitted = true := List.all_eq_true.mpr h
  rw [ofText, ofPages, if_pos hcs, ofPages]
  exact congrArg (Source.mk · none) (List.append_nil cs)

theorem ofOctets_encode {cs : List Char} (h : ∀ c ∈ cs, isAdmitted c = true) (hreturn : '\r' ∉ cs) :
    ofOctets (Utf8.encode cs) = ⟨cs, none⟩ := by
  obtain ⟨chunks, hpages, rfl⟩ := Feed.pages_encode hreturn
  rw [ofOctets, hpages]
  match chunks, h with
  | [], _ => rfl
  | [cs], h => exact ofPages_map_ok h
  | first :: second :: chunks, h =>
    have hjoined : (first :: second :: chunks).flatten = ((first ++ second) :: chunks).flatten := by
      simp
    rw [hjoined] at h ⊢
    exact ofPages_map_ok h

end Source
end SerialAudit.Document
