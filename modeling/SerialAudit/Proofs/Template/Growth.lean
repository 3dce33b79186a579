import SerialAudit.Template.Render

/-! Templates under longer names.

* `Renders` : a template has a text for some names;
* `Thing.Grows` : a thing and what stands in its place when a name is longer;
* `Names.Grow` : names whose texts are at least as long as others;
* `Steady` : no layout of a template has a hole that begins at a name.

A step that leads somewhere from a text leads somewhere from every longer one (`Thing.Grows.follow`), as
only positions look into a text. So a template that has a text for a name has one for every longer name
(`Renders.grow`), unless the name is also written into a layout, where its characters matter. -/
namespace SerialAudit.Template
set_option autoImplicit false

def Renders (names : Names) (template : String) : Prop := ∃ text, render names template = .ok text

/-! ## Holes one by one -/

theorem exists_bind_eq_ok_iff {α β : Type} {x : Except Fault α} {f : α → Except Fault β} :
    (∃ b, x >>= f = .ok b) ↔ ∃ a, x = .ok a ∧ ∃ b, f a = .ok b := by
  cases x with
  | error fault => simp [bind, Except.bind]
  | ok a => simp [bind, Except.bind]

/-- The pieces have a text exactly if none is malformed and every hole has one. -/
theorem fillAll_eq_ok_iff (names : Names) (expand : List Char → Except Fault (List Char))
    (ps : List Piece) :
    (∃ text, fillAll names expand ps = .ok text) ↔
      .malformed ∉ ps ∧ ∀ h, .hole h ∈ ps → ∃ text, h.fill names expand = .ok text := by
  induction ps with
  | nil => simp [fillAll]
  | cons p ps ih =>
    cases p with
    | char c =>
      rw [fillAll, exists_bind_eq_ok_iff]
      simpa using ih
    | malformed => simp [fillAll]
    | hole h =>
      have hboth : (∃ text, fillAll names expand (.hole h :: ps) = .ok text) ↔
          (∃ text, h.fill names expand = .ok text) ∧ ∃ text, fillAll names expand ps = .ok text := by
        rw [fillAll, exists_bind_eq_ok_iff]
        simp only [exists_bind_eq_ok_iff]
        simp
      rw [hboth, ih]
      constructor
      · rintro ⟨hfill, hwell, hfills⟩
        refine ⟨by simp [hwell], fun h' hmem => ?_⟩
        rcases List.mem_cons.mp hmem with heq | hmem
        · cases heq
          exact hfill
        · exact hfills h' hmem
      · rintro ⟨hwell, hfills⟩
        rw [List.mem_cons, not_or] at hwell
        exact ⟨hfills h List.mem_cons_self, hwell.2,
          fun h' hmem => hfills h' (List.mem_cons_of_mem _ hmem)⟩

theorem fillAll_congr {names names' : Names} {expand expand' : List Char → Except Fault (List Char)}
    {ps : List Piece} (h : ∀ x, .hole x ∈ ps → x.fill names expand = x.fill names' expand') :
    fillAll names expand ps = fillAll names' expand' ps := by
  induction ps with
  | nil => rfl
  | cons p ps ih =>
    have hrest := ih fun x hx => h x (List.mem_cons_of_mem p hx)
    cases p with
    | char c => rw [fillAll, fillAll, hrest]
    | hole x => rw [fillAll, fillAll, hrest, h x List.mem_cons_self]
    | malformed => rfl

theorem Hole.fill_eq_ok_iff (names : Names) (expand : List Char → Except Fault (List Char))
    (h : Hole) :
    (∃ text, h.fill names expand = .ok text) ↔
      ∃ found, lookUp names h.name = .ok found ∧
        ∃ converted, found.convert h.conversion = .ok converted ∧
          ∃ layout, (if h.nested then expand h.layout else .ok h.layout) = .ok layout ∧
            ∃ text, converted.layOut layout = .ok text := by
  rw [fill]
  cases h.nested <;> simp only [exists_bind_eq_ok_iff, if_true, Bool.false_eq_true, if_false]

theorem renders_iff (names : Names) (template : String) :
    Renders names template ↔ .malformed ∉ pieces .plain template.toList ∧
      ∀ h, .hole h ∈ pieces .plain template.toList →
        ∃ text, h.fill names (renderTo names 1) = .ok text := by
  rw [← fillAll_eq_ok_iff, Renders, render, renderTo]
  cases fillAll names (renderTo names 1) (pieces .plain template.toList) <;> simp [Except.map]

/-! ## Things -/

/-- What stands for a thing when a name becomes longer: a longer text for a text, and what is bound to
it for what is bound to the text. -/
inductive Thing.Grows : Thing → Thing → Prop
  | same (t : Thing) : Grows t t
  | text {s s' : String} (h : s.toList.length ≤ s'.toList.length) : Grows (.text s) (.text s')
  | bound {t t' : Thing} (h : Grows t t') (owner : Kind) (m : Member) :
    Grows (.bound t owner m) (.bound t' owner m)

namespace Thing.Grows

variable {t t' u : Thing}

theorem kindOf_eq (h : Grows t t') : t'.kindOf = t.kindOf := by
  cases h <;> rfl

theorem namingKind_eq (h : Grows t t') : t'.namingKind = t.namingKind := by
  cases h <;> rfl

/-- Of the values only that of `__self__` is other for a longer text: it is what the member is bound
to. -/
theorem value? (h : Grows t t') {name : String} (hu : t.value? name = some u) :
    ∃ u', t'.value? name = some u' ∧ Grows u u' := by
  cases h with
  | same => exact ⟨u, hu, .same u⟩
  | text => exact ⟨u, hu, .same u⟩
  | @bound t t' hself owner m =>
    rw [Thing.value?] at hu ⊢
    by_cases hclass : name = "__class__"
    · rw [if_pos hclass] at hu ⊢
      exact ⟨u, hu, .same u⟩
    · rw [if_neg hclass] at hu ⊢
      unfold ofBound? at hu ⊢
      split at hu
      · obtain rfl := Option.some.inj hu
        by_cases hfree : m.access = .free
        · exact ⟨_, rfl, by simpa [hfree] using Grows.same nothing⟩
        · exact ⟨_, rfl, by simpa [hfree] using hself⟩
      · exact ⟨u, hu, .same u⟩
      · rw [hself.namingKind_eq]
        exact ⟨u, hu, .same u⟩
      · exact ⟨u, hu, .same u⟩

theorem take? (h : Grows t t') {owner : Kind} {m : Member} (hu : t.take? owner m = some u) :
    ∃ u', t'.take? owner m = some u' ∧ Grows u u' := by
  rw [Thing.take?] at hu ⊢
  rw [h.kindOf_eq]
  cases hm : m.access <;> simp only [hm] at hu ⊢
  case operation | method =>
    obtain rfl := Option.some.inj hu
    exact ⟨_, rfl, .bound h owner m⟩
  case computed | stored => exact h.value? hu
  all_goals exact ⟨u, hu, .same u⟩

theorem member? (h : Grows t t') {name : String} (hu : t.member? name = some u) :
    ∃ u', t'.member? name = some u' ∧ Grows u u' := by
  have hplain : t.plainMember? name = some u → ∃ u', t'.plainMember? name = some u' ∧ Grows u u' := by
    intro hplain
    obtain ⟨⟨owner, m⟩, hfind, htake⟩ := Option.bind_eq_some_iff.mp hplain
    obtain ⟨u', hu', hgrows⟩ := h.take? htake
    refine ⟨u', ?_, hgrows⟩
    rw [plainMember?, h.kindOf_eq, hfind]
    exact hu'
  cases h with
  | same => exact ⟨u, hu, .same u⟩
  | text => exact hplain hu
  | bound => exact hplain hu

theorem atIndex (h : Grows t t') {n : Nat} (hu : t.atIndex n = .ok u) :
    ∃ u', t'.atIndex n = .ok u' ∧ Grows u u' := by
  cases h with
  | same => exact ⟨u, hu, .same u⟩
  | @text s s' hlength =>
    rw [Thing.atIndex] at hu ⊢
    cases hc : s.toList[n]? with
    | none => rw [hc] at hu; cases hu
    | some c =>
      rw [hc] at hu
      obtain rfl := Except.ok.inj hu
      have hn : n < s'.toList.length := by
        have := (List.getElem?_eq_some_iff.mp hc).1
        omega
      rw [List.getElem?_eq_getElem hn]
      exact ⟨_, rfl, .text (by simp)⟩
  | bound => cases hu

theorem atKey (h : Grows t t') {key : String} (hu : t.atKey key = .ok u) :
    ∃ u', t'.atKey key = .ok u' ∧ Grows u u' := by
  cases h with
  | same => exact ⟨u, hu, .same u⟩
  | text => cases hu
  | bound => cases hu

theorem follow (h : Grows t t') {s : Step} (hu : t.follow s = .ok u) :
    ∃ u', t'.follow s = .ok u' ∧ Grows u u' := by
  cases s with
  | member name =>
    rw [Thing.follow] at hu ⊢
    cases hm : t.member? name with
    | none => rw [hm] at hu; cases hu
    | some x =>
      rw [hm] at hu
      obtain rfl := Except.ok.inj hu
      obtain ⟨u', hu', hgrows⟩ := h.member? hm
      rw [hu']
      exact ⟨u', rfl, hgrows⟩
  | index n => exact h.atIndex hu
  | key key => exact h.atKey hu
  | malformed => cases hu

theorem followAll (h : Grows t t') {steps : List Step} (hu : t.followAll steps = .ok u) :
    ∃ u', t'.followAll steps = .ok u' ∧ Grows u u' := by
  induction steps generalizing t t' with
  | nil =>
    obtain rfl := Except.ok.inj hu
    exact ⟨t', rfl, h⟩
  | cons s steps ih =>
    rw [Thing.followAll] at hu ⊢
    cases hs : t.follow s with
    | error fault => rw [hs] at hu; cases hu
    | ok x =>
      rw [hs] at hu
      obtain ⟨x', hx', hgrows⟩ := h.follow hs
      rw [hx']
      exact ih hgrows hu

/-- A conversion ends at a text, whatever its length, or leaves things as they are. -/
theorem convert (h : Grows t t') {conversion : Option Char} (hu : t.convert conversion = .ok u) :
    ∃ u', t'.convert conversion = .ok u' ∧
      (Grows u u' ∨ ∃ s s', u = .text s ∧ u' = .text s') := by
  unfold Thing.convert at hu ⊢
  split at hu
  · obtain rfl := Except.ok.inj hu
    exact ⟨t', rfl, Or.inl h⟩
  · exact ⟨_, rfl, Or.inr ⟨_, _, (Except.ok.inj hu).symm, rfl⟩⟩
  · exact ⟨_, rfl, Or.inr ⟨_, _, (Except.ok.inj hu).symm, rfl⟩⟩
  · exact ⟨_, rfl, Or.inr ⟨_, _, (Except.ok.inj hu).symm, rfl⟩⟩
  · cases hu

end Thing.Grows

/-- Whether a layout suits a text does not depend on the text. -/
theorem Thing.layOut_text {s s' : String} {layout text : List Char}
    (h : (Thing.text s).layOut layout = .ok text) : ∃ text', (Thing.text s').layOut layout = .ok text' := by
  unfold layOut at h ⊢
  split at h
  · rename_i hempty
    rw [if_pos hempty]
    exact ⟨_, rfl⟩
  · rename_i hempty
    rw [if_neg hempty]
    unfold withLayout at h ⊢
    dsimp only at h ⊢
    split at h
    · cases h
    · split at h
      · cases h
      · rename_i hwide
        rw [if_neg hwide]
        exact ⟨_, rfl⟩

theorem Thing.Grows.layOut {t t' : Thing} (h : Grows t t') {layout text : List Char}
    (ht : t.layOut layout = .ok text) : ∃ text', t'.layOut layout = .ok text' := by
  cases h with
  | same => exact ⟨text, ht⟩
  | text => exact layOut_text ht
  | bound =>
    unfold Thing.layOut at ht ⊢
    split at ht
    · rename_i hempty
      rw [if_pos hempty]
      exact ⟨_, rfl⟩
    · cases ht

/-! ## Templates -/

/-- Every name has a text that is at least as long. -/
def Names.Grow (names names' : Names) : Prop :=
  ∀ n s, names.lookup n = some s →
    ∃ s', names'.lookup n = some s' ∧ s.toList.length ≤ s'.toList.length

def Steady (name : String) (template : String) : Prop :=
  ∀ h, .hole h ∈ pieces .plain template.toList → h.nested = true →
    ∀ inner, .hole inner ∈ pieces .plain h.layout → head inner.name ≠ .named name

theorem lookUp_grow {names names' : Names} (h : names.Grow names') {path : List Char} {found : Thing}
    (hfound : lookUp names path = .ok found) :
    ∃ found', lookUp names' path = .ok found' ∧ found.Grows found' := by
  unfold lookUp at hfound ⊢
  cases hhead : head path with
  | malformed => rw [hhead] at hfound; cases hfound
  | positional => rw [hhead] at hfound; cases hfound
  | named n =>
    simp only [hhead] at hfound ⊢
    cases hs : names.lookup n with
    | none => rw [hs] at hfound; cases hfound
    | some s =>
      rw [hs] at hfound
      obtain ⟨s', hs', hlength⟩ := h n s hs
      rw [hs']
      exact (Thing.Grows.text hlength).followAll hfound

theorem lookUp_congr {names names' : Names} {path : List Char}
    (h : ∀ n, head path = .named n → names.lookup n = names'.lookup n) :
    lookUp names path = lookUp names' path := by
  unfold lookUp
  cases hhead : head path with
  | named n => simp only [h n hhead]
  | _ => rfl

section

variable {names names' : Names} {name template : String}

/-- A layout without the name is filled in as it was. -/
theorem renderTo_one_congr {cs : List Char}
    (hothers : ∀ n, n ≠ name → names.lookup n = names'.lookup n)
    (h : ∀ inner, .hole inner ∈ pieces .plain cs → head inner.name ≠ .named name) :
    renderTo names 1 cs = renderTo names' 1 cs := by
  refine fillAll_congr fun inner hinner => ?_
  have hfound : lookUp names inner.name = lookUp names' inner.name :=
    lookUp_congr fun n hn => hothers n fun heq => h inner hinner (heq ▸ hn)
  rw [Hole.fill, Hole.fill, hfound]
  rfl

theorem Renders.grow (hgrow : names.Grow names')
    (hothers : ∀ n, n ≠ name → names.lookup n = names'.lookup n) (hsteady : Steady name template)
    (h : Renders names template) : Renders names' template := by
  rw [renders_iff] at h ⊢
  refine ⟨h.1, fun x hx => ?_⟩
  obtain ⟨found, hfound, converted, hconverted, layout, hlayout, text, htext⟩ :=
    (x.fill_eq_ok_iff names (renderTo names 1)).mp (h.2 x hx)
  obtain ⟨found', hfound', hgrows⟩ := lookUp_grow hgrow hfound
  obtain ⟨converted', hconverted', hlike⟩ := hgrows.convert hconverted
  have hlayout' : (if x.nested then renderTo names' 1 x.layout else .ok x.layout) = .ok layout := by
    cases hnested : x.nested with
    | false => simpa [hnested] using hlayout
    | true =>
      rw [hnested, if_pos rfl] at hlayout
      rw [if_pos rfl, ← renderTo_one_congr hothers (hsteady x hx hnested), hlayout]
  refine (x.fill_eq_ok_iff names' (renderTo names' 1)).mpr
    ⟨found', hfound', converted', hconverted', layout, hlayout', ?_⟩
  rcases hlike with hgrows | ⟨s, s', rfl, rfl⟩
  · exact hgrows.layOut htext
  · exact Thing.layOut_text htext

end

end SerialAudit.Template
