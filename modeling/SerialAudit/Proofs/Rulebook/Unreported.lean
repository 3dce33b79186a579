import Mathlib.Data.List.Infix
import SerialAudit.Proofs.Rulebook.Wording
import SerialAudit.Tools

/-! Rules files whose fault nobody is told.

* `Document.Value.IsSingle` : values that cannot be gone through;
* `Document.Value.Under` : the value that counts under a key of a mapping;
* `Document.Value.Unsuitable` : values of which it cannot be asked for rules, or whose rules cannot be gone
  through;
* `Folder.Unreported` : a rules file that cannot be opened or read, or has such a value;
* `Tool.Readable` : the candidates of a call are candidates.

A load that fails has a message unless its folder is one of these (`load_unreported_iff`), and the tools
give that message on, or no answer at all (`rules_are_reported_iff`). -/
namespace SerialAudit
set_option autoImplicit false

/-! ## Values -/

namespace Document.Value

def IsSingle : Value → Prop
  | null | bool _ | int _ | float _ | moment => True
  | _ => False

def Under (entries : List (Value × Value)) (name : String) (v : Value) : Prop :=
  ∃ before after, entries = before ++ (text name, v) :: after ∧ ∀ e ∈ after, e.1 ≠ text name

inductive Unsuitable : Value → Prop
  | flag : Unsuitable (bool true)
  | integer {n : Int} (h : n ≠ 0) : Unsuitable (int n)
  | number {x : Binary} (h : x.toInt? ≠ some 0) : Unsuitable (float x)
  | octets {bs : List UInt8} (h : bs ≠ []) : Unsuitable (bytes bs)
  | moment : Unsuitable moment
  | word {s : String} (h : "rules".toList <:+: s.toList) : Unsuitable (text s)
  | item {items : List Value} (h : text "rules" ∈ items) : Unsuitable (list items)
  | member {members : List Value} (h : text "rules" ∈ members) : Unsuitable (set members)
  | rules {entries : List (Value × Value)} {v : Value} (h : Under entries "rules" v)
    (hv : v.IsSingle) : Unsuitable (map entries)

theorem items?_eq_none_iff (v : Value) : v.items? = none ↔ v.IsSingle := by
  cases v <;> simp [items?, IsSingle]

theorem isText_iff (name : String) (v : Value) : v.isText name = true ↔ v = text name := by
  cases v <;> simp [isText]

theorem any_isText_iff (name : String) (vs : List Value) :
    vs.any (·.isText name) = true ↔ text name ∈ vs := by
  simp [isText_iff]

theorem lookUp?_eq_some_iff (name : String) (entries : List (Value × Value)) (v : Value) :
    lookUp? name entries = some v ↔ Under entries name v := by
  simp only [lookUp?, Option.map_eq_some_iff, List.find?_eq_some_iff_append, isText_iff]
  constructor
  · rintro ⟨⟨key, v⟩, ⟨rfl, after, before, hall, hafter⟩, rfl⟩
    refine ⟨before.reverse, after.reverse, ?_, fun e he => ?_⟩
    · rw [← List.reverse_reverse entries, hall]
      simp
    · have hnot := hafter e (List.mem_reverse.mp he)
      exact fun heq => by simp [heq, isText] at hnot
  · rintro ⟨before, after, rfl, hafter⟩
    refine ⟨(text name, v), ⟨rfl, after.reverse, before.reverse, by simp, fun e he => ?_⟩, rfl⟩
    have hnot : e.1.isText name ≠ true := mt (isText_iff name e.1).mp (hafter e (List.mem_reverse.mp he))
    simpa using hnot

theorem holds_iff (word cs : List Char) : holds word cs = true ↔ word <:+: cs := by
  induction cs with
  | nil => simp [holds]
  | cons c cs ih => rw [holds, Bool.or_eq_true, ih, List.isPrefixOf_iff_prefix, List.infix_cons_iff]

/-- What asking a value for rules comes to: a fault that nobody is told exactly if it is unsuitable. -/
def Asked (v : Value) : Prop :=
  (v.Unsuitable ∧ rulesEntries v = .error .unsuitable) ∨
    (¬ v.Unsuitable ∧ (rulesEntries v = .error .undefinedRules ∨
      ∃ entries, rulesEntries v = .ok entries))

/-- A value that has no entries: that it holds the key all the same, or that it cannot be asked for it, is
what makes it unsuitable. -/
theorem asked_of_held {v : Value} (held : Bool) (hheld : held = true ↔ v.Unsuitable)
    (h : rulesEntries v = .error (if held then .unsuitable else .undefinedRules)) : v.Asked := by
  cases held with
  | true => exact Or.inl ⟨hheld.mp rfl, h⟩
  | false => exact Or.inr ⟨fun hv => Bool.false_ne_true (hheld.mpr hv), Or.inl h⟩

theorem rulesEntries_map (entries : List (Value × Value)) :
    rulesEntries (map entries) = (lookUp? rulesKey entries).elim (.error .undefinedRules)
      fun rules => rules.items?.elim (.error .unsuitable) .ok := by
  cases entries with
  | nil => rfl
  | cons e entries =>
    simp only [rulesEntries, rulesValue, isNothing, List.isEmpty_cons, Bool.false_eq_true, if_false]
    cases lookUp? rulesKey (e :: entries) with
    | none => rfl
    | some rules =>
      simp only [bind, Except.bind, Option.elim]
      cases rules.items? <;> rfl

theorem asked_map (entries : List (Value × Value)) : (map entries).Asked := by
  have hentries := rulesEntries_map entries
  cases hrules : lookUp? rulesKey entries with
  | none =>
    rw [hrules, Option.elim_none] at hentries
    refine Or.inr ⟨fun hb => ?_, Or.inl hentries⟩
    cases hb with
    | rules h hv => exact Option.some_ne_none _ (((lookUp?_eq_some_iff _ _ _).mpr h).symm.trans hrules)
  | some rules =>
    rw [hrules, Option.elim_some] at hentries
    have hunder := (lookUp?_eq_some_iff _ _ _).mp hrules
    cases hitems : rules.items? with
    | none =>
      rw [hitems, Option.elim_none] at hentries
      exact Or.inl ⟨.rules hunder ((items?_eq_none_iff _).mp hitems), hentries⟩
    | some items =>
      rw [hitems, Option.elim_some] at hentries
      refine Or.inr ⟨fun hb => ?_, Or.inr ⟨items, hentries⟩⟩
      cases hb with
      | @rules _ v h hv =>
        obtain rfl : rules = v :=
          Option.some.inj (hrules.symm.trans ((lookUp?_eq_some_iff _ _ _).mpr h))
        exact Option.some_ne_none _ (hitems.symm.trans ((items?_eq_none_iff _).mpr hv))

theorem asked (v : Value) : v.Asked := by
  cases v with
  | null => exact Or.inr ⟨nofun, Or.inl rfl⟩
  | bool b =>
    cases b with
    | true => exact Or.inl ⟨.flag, rfl⟩
    | false => exact Or.inr ⟨nofun, Or.inl rfl⟩
  | int n =>
    refine asked_of_held (n ≠ 0) ?_ ?_
    · rw [decide_eq_true_iff]
      exact ⟨.integer, fun hb => by cases hb; assumption⟩
    · by_cases h : n = 0 <;> simp [rulesEntries, rulesValue, isNothing, h, bind, Except.bind]
  | float x =>
    refine asked_of_held (x.toInt? ≠ some 0) ?_ ?_
    · rw [decide_eq_true_iff]
      exact ⟨.number, fun hb => by cases hb; assumption⟩
    · by_cases h : x.toInt? = some 0 <;>
        simp [rulesEntries, rulesValue, isNothing, h, bind, Except.bind]
  | bytes bs =>
    cases bs with
    | nil => exact Or.inr ⟨fun hb => by cases hb; contradiction, Or.inl rfl⟩
    | cons b bs => exact Or.inl ⟨.octets (List.cons_ne_nil b bs), rfl⟩
  | moment => exact Or.inl ⟨.moment, rfl⟩
  | text s =>
    refine asked_of_held (holds rulesKey.toList s.toList) ?_ ?_
    · rw [holds_iff]
      exact ⟨.word, fun hb => by cases hb; assumption⟩
    · by_cases h : s = ""
      · subst h
        rfl
      · simp [rulesEntries, rulesValue, isNothing, h, bind, Except.bind]
  | list items =>
    refine asked_of_held (items.any (·.isText rulesKey)) ?_ ?_
    · rw [any_isText_iff]
      exact ⟨.item, fun hb => by cases hb; assumption⟩
    · cases items <;> rfl
  | set members =>
    refine asked_of_held (members.any (·.isText rulesKey)) ?_ ?_
    · rw [any_isText_iff]
      exact ⟨.member, fun hb => by cases hb; assumption⟩
    · cases members <;> rfl
  | map entries => exact asked_map entries

end Document.Value

/-! ## Loads -/

inductive Folder.Unreported : Folder → Prop
  | directory : Unreported .directory
  | notDirectory : Unreported .notDirectory
  | document {octets : List UInt8} {fault : Document.Fault}
    (h : Document.Value.ofSource Rulebook.depth (.ofOctets octets) = .error fault) :
    Unreported (.file octets)
  | value {octets : List UInt8} {v : Document.Value}
    (h : Document.Value.ofSource Rulebook.depth (.ofOctets octets) = .ok v) (hv : v.Unsuitable) :
    Unreported (.file octets)

/-- The faults with a message. -/
def LoadFault.Told (fault : LoadFault) : Prop := ∀ directory, (fault.message? directory).isSome = true

theorem LoadFault.told_iff (fault : LoadFault) (directory : String) :
    fault.Told ↔ (fault.message? directory).isSome = true := by
  refine ⟨fun h => h directory, fun h _ => ?_⟩
  cases fault <;> first | rfl | exact absurd h Bool.false_ne_true

namespace Rulebook

theorem told_of_ofEntries {entries : List Datum} {fault : LoadFault}
    (h : ofEntries entries = .error fault) : fault.Told := by
  rw [ofEntries] at h
  split at h
  · cases h
    exact fun _ => rfl
  · split at h <;> cases h
    exact fun _ => rfl

theorem load_unreported_iff (folder : Folder) :
    (∃ fault, load folder = .error fault ∧ ¬ fault.Told) ↔ folder.Unreported := by
  have hsilent : ∀ fault : LoadFault, fault.message? "" = none → ¬ fault.Told := by
    intro fault h
    rw [fault.told_iff "", h]
    exact Bool.false_ne_true
  cases folder with
  | absent =>
    refine ⟨?_, nofun⟩
    rintro ⟨fault, h, hnot⟩
    cases h
    exact absurd (fun _ => rfl) hnot
  | directory => exact ⟨fun _ => .directory, fun _ => ⟨_, rfl, hsilent _ rfl⟩⟩
  | notDirectory => exact ⟨fun _ => .notDirectory, fun _ => ⟨_, rfl, hsilent _ rfl⟩⟩
  | file octets =>
    have hload : load (.file octets) = ofSource (.ofOctets octets) := rfl
    rw [hload, ofSource]
    cases hvalue : Document.Value.ofSource depth (.ofOctets octets) with
    | error fault => exact ⟨fun _ => .document hvalue, fun _ => ⟨_, rfl, hsilent _ rfl⟩⟩
    | ok v =>
      rcases v.asked with ⟨hv, hentries⟩ | ⟨hv, hentries⟩
      · simp only [hentries]
        exact ⟨fun _ => .value hvalue hv, fun _ => ⟨_, rfl, hsilent _ rfl⟩⟩
      · have hnot : ¬ (Folder.file octets).Unreported := by
          rintro (_ | _ | h | ⟨h, hv'⟩)
          · cases hvalue.symm.trans h
          · obtain rfl := Except.ok.inj (hvalue.symm.trans h)
            exact hv hv'
        refine iff_of_false ?_ hnot
        rintro ⟨fault, h, hsilent⟩
        rcases hentries with hentries | ⟨entries, hentries⟩
        · simp only [hentries] at h
          cases h
          exact hsilent fun _ => rfl
        · simp only [hentries] at h
          exact hsilent (told_of_ofEntries h)

end Rulebook

/-! ## The answers of the tools -/

namespace Tool

/-- A call whose candidates are none is answered by a fault of its own, whatever the rules are. -/
def Readable : Tool → Prop
  | analyzeClasses candidates => ∃ cs, Candidate.readAll candidates = .ok cs
  | checkClass candidate => ∃ cs, Candidate.readAll [candidate] = .ok cs
  | getRules => True

/-- The reply to a call without rules. -/
def replyWithout (directory : String) (fault : LoadFault) : Reply :=
  (fault.message? directory).elim .failure (.refusal "RuleConfigError")

theorem reply_of_load_error {α : Type} (directory : String) (write : α → List (String × Datum))
    (fault : LoadFault) :
    reply directory write (.error (.catalog (.load fault))) = replyWithout directory fault := by
  have hmessage : (ServiceFault.catalog (.load fault)).message? directory = fault.message? directory := rfl
  rw [reply, refusal?, replyWithout, hmessage]
  cases fault.message? directory <;> rfl

theorem analyze_of_load_error {s : Service} {folder : Folder} {fault : LoadFault}
    (h : s.catalog.load folder = .error fault) (fresh : String) {candidates : List Datum}
    (hread : ∃ cs, Candidate.readAll candidates = .ok cs) (write : Report → List (String × Datum)) :
    (analyze s folder fresh candidates write).1 = replyWithout s.catalog.directory fault := by
  obtain ⟨cs, hcs⟩ := hread
  have houtcome : (s.analyzeFresh folder fresh cs).outcome = .error (.catalog (.load fault)) := by
    simp only [Service.analyzeFresh, Service.analyze, h]
  simp only [analyze, hcs, houtcome, reply_of_load_error]

theorem call_of_load_error {t : Tool} (ht : t.Readable) {s : Service} {folder : Folder}
    {fault : LoadFault} (h : s.catalog.load folder = .error fault) (fresh : String) :
    (t.call s folder fresh).1 = replyWithout s.catalog.directory fault := by
  cases t with
  | analyzeClasses candidates => exact analyze_of_load_error h fresh ht _
  | checkClass candidate => exact analyze_of_load_error h fresh ht _
  | getRules =>
    have hdescriptors : (s.catalog.descriptors folder).1 = .error (.load fault) := by
      simp only [Catalog.descriptors, Catalog.use, h]
    simp only [call, hdescriptors, Except.mapError, reply_of_load_error]

end Tool

theorem Catalog.descriptors_eq_error_iff (k : Catalog) (folder : Folder) (fault : LoadFault) :
    (k.descriptors folder).1 = .error (.load fault) ↔
      k.rulebook = none ∧ Rulebook.load folder = .error fault := by
  rw [descriptors, use, load]
  cases k.rulebook with
  | some b => simp
  | none => cases Rulebook.load folder <;> simp

/-- The rules are given, or a fault with a message, unless the catalog has no rules yet and the folder is
one that goes unreported. A fault with a message is what every tool replies, and a fault without one is
no reply. -/
theorem rules_are_reported_iff (s : Service) (folder : Folder) :
    ((∃ ds, (s.catalog.descriptors folder).1 = .ok ds) ∨
        (∃ fault, (s.catalog.descriptors folder).1 = .error (.load fault) ∧ fault.Told) ↔
      ¬ (s.catalog.rulebook = none ∧ folder.Unreported)) ∧
    ∀ fault, (s.catalog.descriptors folder).1 = .error (.load fault) →
      ∀ t : Tool, t.Readable → ∀ fresh,
        (fault.Told → ∃ message, fault.message? s.catalog.directory = some message ∧
          (t.call s folder fresh).1 = .refusal "RuleConfigError" message) ∧
        (¬ fault.Told → (t.call s folder fresh).1 = .failure) := by
  constructor
  · rw [← Rulebook.load_unreported_iff]
    constructor
    · rintro (⟨ds, hds⟩ | ⟨fault, hfault, htold⟩) ⟨hk, fault', hload, hnot⟩
      · have hfault := (s.catalog.descriptors_eq_error_iff folder fault').mpr ⟨hk, hload⟩
        cases hds.symm.trans hfault
      · have hload' := ((s.catalog.descriptors_eq_error_iff folder fault).mp hfault).2
        obtain rfl := Except.error.inj (hload.symm.trans hload')
        exact hnot htold
    · intro hno
      cases hload : s.catalog.load folder with
      | ok b => exact Or.inl ⟨b.descriptors, by rw [Catalog.descriptors, Catalog.use, hload]⟩
      | error fault =>
        have hfault : (s.catalog.descriptors folder).1 = .error (.load fault) := by
          rw [Catalog.descriptors, Catalog.use, hload]
        obtain ⟨hk, hload'⟩ := (s.catalog.descriptors_eq_error_iff folder fault).mp hfault
        exact Or.inr ⟨fault, hfault, by_contra fun hnot => hno ⟨hk, fault, hload', hnot⟩⟩
  · intro fault hfault t ht fresh
    obtain ⟨hk, hload'⟩ := (s.catalog.descriptors_eq_error_iff folder fault).mp hfault
    have hload : s.catalog.load folder = .error fault := by rw [Catalog.load, hk, hload']
    rw [Tool.call_of_load_error ht hload, Tool.replyWithout, fault.told_iff s.catalog.directory]
    cases fault.message? s.catalog.directory with
    | some message => exact ⟨fun _ => ⟨message, rfl, rfl⟩, fun hnot => absurd rfl hnot⟩
    | none => exact ⟨fun htold => absurd htold Bool.false_ne_true, fun _ => rfl⟩

/-- A rules file that is the number zero has no rules, and the tools say so. -/
theorem lone_zero_is_reported :
    let s : Service := ⟨.ofDirectory "rules", 4⟩
    let folder := Folder.ofText "0"
    (s.catalog.descriptors folder).1 = .error (.load .undefinedRules) ∧
      LoadFault.undefinedRules.Told ∧ Tool.getRules.Readable ∧
      ∃ message, LoadFault.undefinedRules.message? "rules" = some message ∧
        (Tool.getRules.call s folder "r").1 = .refusal "RuleConfigError" message := by
  intro s folder
  have hload : s.catalog.load folder = .error .undefinedRules := by decide +kernel
  have hfault : (s.catalog.descriptors folder).1 = .error (.load .undefinedRules) := by
    rw [Catalog.descriptors, Catalog.use, hload]
  have htold : LoadFault.undefinedRules.Told := fun _ => rfl
  obtain ⟨-, hreplies⟩ := rules_are_reported_iff s folder
  exact ⟨hfault, htold, trivial, (hreplies _ hfault .getRules trivial "r").1 htold⟩

/-- A rules file that is the number one has no rules, and nobody is told. -/
theorem lone_number_is_not_reported :
    let s : Service := ⟨.ofDirectory "rules", 4⟩
    let folder := Folder.ofText "1"
    (s.catalog.descriptors folder).1 = .error (.load .unsuitable) ∧
      (∀ directory, LoadFault.message? directory .unsuitable = none) ∧
      (Tool.getRules.call s folder "r").1 = .failure ∧
      ((Tool.analyzeClasses []).call s folder "r").1 = .failure := by
  intro s folder
  have hload : s.catalog.load folder = .error .unsuitable := by decide +kernel
  have hreply := fun {t : Tool} (ht : t.Readable) => Tool.call_of_load_error ht hload "r"
  refine ⟨?_, fun _ => rfl, hreply trivial, hreply ⟨[], rfl⟩⟩
  rw [Catalog.descriptors, Catalog.use, hload]

end SerialAudit
