import SerialAudit.Proofs.Rulebook.Rendering

/-! What a catalog answers over time, while the content of its directory changes.

* `Catalog.Query`, `Catalog.ask` : the questions to a catalog, and what comes of them;
* `Catalog.Event` : a question, or new content for the directory;
* `Catalog.Site`, `Catalog.Site.answers` : a catalog beside its directory, and its answers in a history;
* `Catalog.contentAt` : what stands in the directory at a moment: what was written last;
* `Catalog.LoadsAt` : at a moment there is a question, and the rules load from what stands there.

A question leaves the catalog as it is where the rules do not load (`ask_of_fault`), so until they do
it is a fresh one (`catalog_of_not_loadsAt`). The rules that load first are kept, and the directory is
not looked at again (`catalog_after`). -/
namespace SerialAudit
set_option autoImplicit false

namespace Catalog

/-! ## Questions -/

inductive Query where
  | descriptors
  | describe (name : String)
  | format (d : Diagnostic) (location : Option String)
  | formatAt (d : Diagnostic) (location : Datum)

inductive Answer where
  | descriptors (ds : List Descriptor)
  | descriptor (e : Descriptor)
  | wording (x : Option Reported)
  deriving DecidableEq, Repr

def ask (k : Catalog) (folder : Folder) : Query → Except CatalogFault Answer × Catalog
  | .descriptors => (k.descriptors folder).map (·.map .descriptors) id
  | .describe name => (k.describe folder name).map (·.map .descriptor) id
  | .format d location => (k.format folder d location).map (·.map .wording) id
  | .formatAt d location => (k.formatAt folder d location).map (·.map .wording) id

/-- The answer that some rules give. -/
def Query.answer (b : Rulebook) : Query → Except CatalogFault Answer
  | .descriptors => .ok (.descriptors b.descriptors)
  | .describe name => (b.describe name).map .descriptor
  | .format d location => (b.format d location).map .wording
  | .formatAt d location => (b.formatAt d location).map .wording

theorem ask_of_load {k : Catalog} {folder : Folder} {b : Rulebook} (h : k.load folder = .ok b)
    (q : Query) : k.ask folder q = (q.answer b, { k with rulebook := some b }) := by
  cases q <;> simp only [ask, descriptors, describe, format, formatAt, use_of_load h] <;> rfl

theorem ask_of_fault {k : Catalog} {folder : Folder} {fault : LoadFault}
    (h : k.load folder = .error fault) (q : Query) :
    k.ask folder q = (.error (.load fault), k) := by
  cases q <;> simp only [ask, descriptors, describe, format, formatAt, use, h] <;> rfl

/-! ## Histories -/

inductive Event where
  | query (q : Query)
  | write (folder : Folder)

def Event.written? : Event → Option Folder
  | query _ => none
  | write folder => some folder

/-- A catalog and what stands in its directory. -/
structure Site where
  catalog : Catalog
  folder : Folder

namespace Site

def opening (directory : String) (folder : Folder) : Site := ⟨ofDirectory directory, folder⟩

def perform (s : Site) : Event → Option (Except CatalogFault Answer) × Site
  | .query q => (some (s.catalog.ask s.folder q).1, { s with catalog := (s.catalog.ask s.folder q).2 })
  | .write folder => (none, { s with folder := folder })

def after (s : Site) (events : List Event) : Site := events.foldl (fun s e => (s.perform e).2) s

/-- What each event of a history is answered; only questions are. -/
def answers (s : Site) : List Event → List (Option (Except CatalogFault Answer))
  | [] => []
  | e :: events => (s.perform e).1 :: (s.perform e).2.answers events

theorem after_append (s : Site) (events events' : List Event) :
    s.after (events ++ events') = (s.after events).after events' :=
  List.foldl_append

theorem getElem?_answers (s : Site) (events : List Event) (i : Nat) :
    (s.answers events)[i]? = events[i]?.map fun e => ((s.after (events.take i)).perform e).1 := by
  induction events generalizing s i with
  | nil => rfl
  | cons e events ih =>
    cases i with
    | zero => rfl
    | succ i =>
      rw [answers, List.getElem?_cons_succ, ih, List.getElem?_cons_succ, List.take_succ_cons]
      rfl

theorem folder_after (s : Site) (events : List Event) :
    (s.after events).folder = (events.filterMap Event.written?).getLastD s.folder := by
  induction events generalizing s with
  | nil => rfl
  | cons e events ih =>
    cases e with
    | query q => exact ih _
    | write folder =>
      rw [List.filterMap_cons_some (show (Event.write folder).written? = some folder from rfl),
        List.getLastD_cons]
      exact ih _

/-- Rules that have been loaded stay, whatever is asked and written. -/
theorem catalog_after {s : Site} {b : Rulebook} (h : s.catalog.rulebook = some b)
    (events : List Event) : (s.after events).catalog = s.catalog := by
  induction events generalizing s with
  | nil => rfl
  | cons e events ih =>
    have hstep : (s.perform e).2.catalog = s.catalog := by
      cases e with
      | write folder => rfl
      | query q =>
        have hload : s.catalog.load s.folder = .ok b := by rw [load, h]
        show (s.catalog.ask s.folder q).2 = s.catalog
        rw [ask_of_load hload, ← h]
    exact (ih (hstep ▸ h)).trans hstep

end Site

/-! ## The first load -/

/-- What was written last before a moment, or else what stood there from the beginning. -/
def contentAt (folder : Folder) (events : List Event) (i : Nat) : Folder :=
  ((events.take i).filterMap Event.written?).getLastD folder

def LoadsAt (folder : Folder) (events : List Event) (i : Nat) : Prop :=
  (∃ q, events[i]? = some (.query q)) ∧ ∃ b, Rulebook.load (contentAt folder events i) = .ok b

/-- The answer of a catalog that has not been asked before. -/
def freshAnswer (directory : String) (folder : Folder) (q : Query) : Except CatalogFault Answer :=
  ((ofDirectory directory).ask folder q).1

variable {directory : String} {folder : Folder} {events : List Event}

theorem folder_after_take (directory : String) (folder : Folder) (events : List Event) (i : Nat) :
    ((Site.opening directory folder).after (events.take i)).folder = contentAt folder events i :=
  Site.folder_after _ _

theorem catalog_of_not_loadsAt {i : Nat} (h : ∀ j < i, ¬ LoadsAt folder events j) :
    ((Site.opening directory folder).after (events.take i)).catalog = ofDirectory directory := by
  induction i with
  | zero => rfl
  | succ i ih =>
    have hbefore := ih fun j hj => h j (by omega)
    rw [List.take_add_one, Site.after_append]
    cases he : events[i]? with
    | none => exact hbefore
    | some e =>
      cases e with
      | write content => exact hbefore
      | query q =>
        -- only a load could change the catalog, and at this question the rules do not load
        show (Catalog.ask _ _ q).2 = ofDirectory directory
        rw [hbefore, folder_after_take]
        cases hload : Rulebook.load (contentAt folder events i) with
        | ok b => exact absurd ⟨⟨q, he⟩, b, hload⟩ (h i (by omega))
        | error fault =>
          have hfault : (ofDirectory directory).load (contentAt folder events i) = .error fault := hload
          rw [ask_of_fault hfault]

/-- Once the rules have loaded for the first time, the catalog keeps them. -/
theorem catalog_of_loadsAt {i j : Nat} {b : Rulebook} (hj : LoadsAt folder events j)
    (hfirst : ∀ k < j, ¬ LoadsAt folder events k)
    (hb : Rulebook.load (contentAt folder events j) = .ok b) (hij : j < i) :
    ((Site.opening directory folder).after (events.take i)).catalog = ⟨directory, some b⟩ := by
  obtain ⟨⟨q, hq⟩, -⟩ := hj
  have hload : (ofDirectory directory).load (contentAt folder events j) = .ok b := hb
  have hthen : ((Site.opening directory folder).after (events.take (j + 1))).catalog =
      ⟨directory, some b⟩ := by
    rw [List.take_add_one, Site.after_append, hq]
    show (Catalog.ask _ _ q).2 = _
    rw [catalog_of_not_loadsAt hfirst, folder_after_take, ask_of_load hload]
    rfl
  have hsplit : events.take i = events.take (j + 1) ++ (events.take i).drop (j + 1) := by
    conv_lhs => rw [← List.take_append_drop (j + 1) (events.take i)]
    rw [List.take_take, Nat.min_eq_left hij]
  rw [hsplit, Site.after_append, Site.catalog_after (b := b) (by rw [hthen]), hthen]

/-- Until the rules load for the first time, each question is answered as by a fresh catalog, for a
catalog that has not loaded them is one. The question at which they load and every later one, whatever
comes of it, are answered as by a catalog that is fresh at that moment. -/
theorem answer_eq_freshAnswer {i : Nat} {q : Query} (hq : events[i]? = some (.query q)) :
    ((∀ j < i, ¬ LoadsAt folder events j) →
      ((Site.opening directory folder).after (events.take i)).catalog = ofDirectory directory ∧
        ((Site.opening directory folder).answers events)[i]? =
          some (some (freshAnswer directory (contentAt folder events i) q))) ∧
    ∀ j ≤ i, LoadsAt folder events j → (∀ k < j, ¬ LoadsAt folder events k) →
      ((Site.opening directory folder).answers events)[i]? =
        some (some (freshAnswer directory (contentAt folder events j) q)) := by
  have hanswer : ((Site.opening directory folder).answers events)[i]? =
      some (some (((Site.opening directory folder).after (events.take i)).catalog.ask
        (contentAt folder events i) q).1) := by
    rw [Site.getElem?_answers, hq, ← folder_after_take directory]
    rfl
  have huntil (h : ∀ j < i, ¬ LoadsAt folder events j) :
      ((Site.opening directory folder).after (events.take i)).catalog = ofDirectory directory ∧
        ((Site.opening directory folder).answers events)[i]? =
          some (some (freshAnswer directory (contentAt folder events i) q)) := by
    rw [hanswer, catalog_of_not_loadsAt h]
    exact ⟨rfl, rfl⟩
  refine ⟨huntil, fun j hji hj hfirst => ?_⟩
  obtain rfl | hlt := Nat.eq_or_lt_of_le hji
  · exact (huntil hfirst).2
  · obtain ⟨b, hb⟩ := hj.2
    have hload : (ofDirectory directory).load (contentAt folder events j) = .ok b := hb
    have hkept : (⟨directory, some b⟩ : Catalog).load (contentAt folder events i) = .ok b := rfl
    rw [hanswer, catalog_of_loadsAt hj hfirst hb hlt, ask_of_load hkept, freshAnswer, ask_of_load hload]

/-- The rules load at a question about an unknown rule, and the wording is asked for after their file is
gone. -/
theorem answer_eq_freshAnswer_of_removal :
    let d : Diagnostic := ⟨.missingField, "A", some "id"⟩
    let events : List Event :=
      [.query .descriptors, .write namedRules, .query (.describe "none"), .write .absent,
        .query (.format d (some "a"))]
    events[4]? = some (.query (.format d (some "a"))) ∧ LoadsAt .absent events 2 ∧
      (∀ k < 2, ¬ LoadsAt .absent events k) ∧
      freshAnswer "rules" namedRules (.describe "none") = .error (.unknownRule "none") ∧
      ((Site.opening "rules" .absent).answers events)[4]? =
        some (some (.ok (.wording (some
          ⟨"D", .missingField, .error, "C", "A id", "A", some "id", some "a"⟩)))) := by
  intro d events
  have hload : (ofDirectory "rules").load namedRules = .ok ⟨namedDescriptors⟩ := load_namedRules
  have hloads : LoadsAt .absent events 2 := ⟨⟨.describe "none", rfl⟩, _, load_namedRules⟩
  have hfirst : ∀ k < 2, ¬ LoadsAt .absent events k := by
    rintro k hk ⟨⟨q, hq⟩, b, hb⟩
    obtain rfl | rfl : k = 0 ∨ k = 1 := by omega
    · cases hb
    · cases hq
  have hunknown : freshAnswer "rules" namedRules (.describe "none") = .error (.unknownRule "none") := by
    rw [freshAnswer, ask_of_load hload]
    rfl
  have hworded : freshAnswer "rules" namedRules (.format d (some "a")) =
      .ok (.wording (some ⟨"D", .missingField, .error, "C", "A id", "A", some "id", some "a"⟩)) := by
    rw [freshAnswer, ask_of_load hload]
    decide +kernel
  have hanswer : ((Site.opening "rules" .absent).answers events)[4]? =
      some (some (freshAnswer "rules" (contentAt .absent events 2) (.format d (some "a")))) :=
    (answer_eq_freshAnswer rfl).2 2 (by decide) hloads hfirst
  have hcontent : contentAt .absent events 2 = namedRules := rfl
  rw [hcontent, hworded] at hanswer
  exact ⟨rfl, hloads, hfirst, hunknown, hanswer⟩

end Catalog
end SerialAudit
