import Mathlib.Data.List.TakeWhile
import SerialAudit.Access.Gate

/-! Who gets through the gate, said without the way in which it looks at a request.

* `Text.Trims` : a text without its outer blanks;
* `Request.FirstHeader`, `Request.LastParameter` : the header and the parameter that count;
* `Request.Bears`, `Request.Shows` : a request shows a token, in its header or in its query;
* `Request.Addresses` : the address of a request has a path, which may be another than that of the request;
* `Request.Straight` : nothing in the request keeps the path of its address from being its own;
* `Gate.Entitles` : a request is for a path that needs no token, or shows the token;
* `Gate.Errs` : a request is not entitled, and the address that the gate reads instead of the path is that
  of an open path, or cannot be read.

The token of a request is the one that it shows (`token_eq_iff`). The path that the gate reads is that of
the address (`pathBy_eq_some_iff`), which is the path of the request if the request is straight
(`addresses_path`), so that the gate is sound but for the requests on which it errs
(`refuses_unentitled_iff`). -/
namespace SerialAudit
set_option autoImplicit false

/-! ## Trimmed texts -/

namespace Text

variable {p : Char → Bool} {cs core : List Char}

def Trims (p : Char → Bool) (cs core : List Char) : Prop :=
  ∃ before after, cs = before ++ (core ++ after) ∧ (∀ c ∈ before, p c = true) ∧
    (∀ c ∈ after, p c = true) ∧ (∀ c ∈ core.head?, p c = false) ∧ ∀ c ∈ core.getLast?, p c = false

theorem dropWhile_eq_self_of_head? (h : ∀ c ∈ cs.head?, p c = false) : cs.dropWhile p = cs := by
  cases cs with
  | nil => rfl
  | cons c cs => exact List.dropWhile_cons_of_neg (by simp [h c rfl])

theorem head?_dropWhile_not (p : Char → Bool) (cs : List Char) :
    ∀ c ∈ (cs.dropWhile p).head?, p c = false := by
  intro c hc
  have h := List.head?_dropWhile_not p cs
  rw [Option.mem_def.mp hc] at h
  simpa using h

theorem trims_trim (p : Char → Bool) (cs : List Char) : Trims p cs (trim p cs) := by
  have hfront : cs = cs.takeWhile p ++ cs.dropWhile p := List.takeWhile_append_dropWhile.symm
  have hback : cs.dropWhile p =
      trim p cs ++ ((cs.dropWhile p).reverse.takeWhile p).reverse := by
    rw [trim, ← List.reverse_append, List.takeWhile_append_dropWhile, List.reverse_reverse]
  refine ⟨_, _, hfront.trans (congrArg _ hback), ?_, ?_, ?_, ?_⟩
  · exact fun c hc => List.mem_takeWhile_imp hc
  · exact fun c hc => List.mem_takeWhile_imp (List.mem_reverse.mp hc)
  · intro c hc
    refine head?_dropWhile_not p cs c ?_
    rw [hback, Option.mem_def, List.head?_append, Option.mem_def.mp hc]
    rfl
  · intro c hc
    rw [trim, List.getLast?_reverse] at hc
    exact head?_dropWhile_not p _ c hc

theorem Trims.trim_eq (h : Trims p cs core) : trim p cs = core := by
  obtain ⟨before, after, rfl, hbefore, hafter, hhead, hlast⟩ := h
  have hfront : (before ++ (core ++ after)).dropWhile p = (core ++ after).dropWhile p :=
    List.dropWhile_append_of_pos hbefore
  have hback : (core ++ after).reverse.dropWhile p = core.reverse := by
    rw [List.reverse_append, List.dropWhile_append_of_pos fun c hc => hafter c (List.mem_reverse.mp hc)]
    exact dropWhile_eq_self_of_head? (by rwa [List.head?_reverse])
  rw [trim, hfront]
  cases core with
  | nil => rw [List.nil_append, List.dropWhile_eq_nil_iff.mpr hafter]; rfl
  | cons c cs =>
    have hself : (c :: cs ++ after).dropWhile p = c :: cs ++ after := dropWhile_eq_self_of_head? hhead
    rw [hself, hback, List.reverse_reverse]

end Text

/-! ## What a request shows -/

namespace Request

variable {r : Request} {name value token : String}

def FirstHeader (r : Request) (name value : String) : Prop :=
  ∃ before written after, r.headers = before ++ (written, value) :: after ∧
    Text.lower written = name ∧ ∀ h ∈ before, Text.lower h.1 ≠ name

def LastParameter (r : Request) (name value : String) : Prop :=
  ∃ before after, Query.parameters r.query = before ++ (name, value) :: after ∧
    ∀ p ∈ after, p.1 ≠ name

/-- The text of an authorization header bears a token, perhaps with blanks around it. -/
def Bears (authorization token : String) : Prop :=
  ∃ rest, authorization.toList = "Bearer ".toList ++ rest ∧ Text.Trims Text.isBlank rest token.toList

/-- A request shows a token in its query only if its header bears none. -/
inductive Shows (r : Request) (token : String) : Prop
  | header {value : String} (h : r.FirstHeader "authorization" value) (hb : Bears value token)
  | parameter (h : ∀ value, r.FirstHeader "authorization" value → ∀ other, ¬ Bears value other)
    (hp : r.LastParameter "token" token)

theorem header?_eq_some_iff : r.header? name = some value ↔ r.FirstHeader name value := by
  simp only [header?, Option.map_eq_some_iff, List.find?_eq_some_iff_append, decide_eq_true_eq]
  constructor
  · rintro ⟨⟨written, v⟩, ⟨hname, before, after, hall, hbefore⟩, rfl⟩
    exact ⟨before, written, after, hall, hname, fun h hh => by simpa using hbefore h hh⟩
  · rintro ⟨before, written, after, hall, hname, hbefore⟩
    exact ⟨(written, value), ⟨hname, before, after, hall, fun h hh => by simpa using hbefore h hh⟩, rfl⟩

theorem last?_eq_some_iff : Query.last? r.query name = some value ↔ r.LastParameter name value := by
  rw [Query.last?, List.lookup_eq_some_iff]
  constructor
  · rintro ⟨after, before, hall, hafter⟩
    refine ⟨before.reverse, after.reverse, ?_, fun p hp => ?_⟩
    · rw [← List.reverse_reverse (Query.parameters r.query), hall]
      simp
    · exact fun he => by simpa [he] using hafter p (List.mem_reverse.mp hp)
  · rintro ⟨before, after, hall, hafter⟩
    refine ⟨after.reverse, before.reverse, by rw [hall]; simp, fun p hp => ?_⟩
    simpa using Ne.symm (hafter p (List.mem_reverse.mp hp))

theorem bearer?_eq_some_iff (authorization : String) :
    bearer? authorization = some token ↔ Bears authorization token := by
  have hlen : "Bearer ".length = "Bearer ".toList.length := rfl
  rw [bearer?, bearerScheme, Option.ite_none_right_eq_some, List.isPrefixOf_iff_prefix]
  constructor
  · rintro ⟨⟨rest, hrest⟩, htoken⟩
    refine ⟨rest, hrest.symm, ?_⟩
    rw [← hrest, hlen, List.drop_left, Text.strip, String.toList_ofList, Option.some.injEq] at htoken
    rw [← htoken, String.toList_ofList]
    exact Text.trims_trim Text.isBlank rest
  · rintro ⟨rest, hrest, htrims⟩
    refine ⟨⟨rest, hrest.symm⟩, ?_⟩
    rw [hrest, hlen, List.drop_left, Text.strip, String.toList_ofList, htrims.trim_eq,
      String.ofList_toList]

theorem token_eq_iff (ht : token ≠ "") : r.token = token ↔ r.Shows token := by
  have hquery : (Query.last? r.query "token").getD "" = token ↔ r.LastParameter "token" token := by
    rw [← last?_eq_some_iff]
    cases Query.last? r.query "token" with
    | none => simpa using Ne.symm ht
    | some value => simp
  rw [Request.token]
  cases hb : (r.header? "authorization").bind bearer? with
  | some shown =>
    obtain ⟨value, hvalue, hshown⟩ := Option.bind_eq_some_iff.mp hb
    have hfirst := header?_eq_some_iff.mp hvalue
    constructor
    · rintro rfl
      exact .header hfirst ((bearer?_eq_some_iff value).mp hshown)
    · rintro (⟨h, hbears⟩ | ⟨hnone, -⟩)
      · obtain rfl := Option.some.inj (hvalue.symm.trans (header?_eq_some_iff.mpr h))
        exact Option.some.inj (hshown.symm.trans ((bearer?_eq_some_iff value).mpr hbears))
      · exact absurd ((bearer?_eq_some_iff value).mp hshown) (hnone value hfirst shown)
  | none =>
    have hnone : ∀ value, r.FirstHeader "authorization" value → ∀ other, ¬ Bears value other := by
      intro value hfirst other hbears
      rw [header?_eq_some_iff.mpr hfirst, Option.bind_some, (bearer?_eq_some_iff value).mpr hbears] at hb
      exact Option.some_ne_none other hb
    rw [hquery]
    constructor
    · exact .parameter hnone
    · rintro (⟨h, hbears⟩ | ⟨-, hp⟩)
      · exact absurd hbears (hnone _ h token)
      · exact hp

/-! ## Addresses -/

/-- An address that is taken apart has its path between the first delimiter and the first of those that
end a path. -/
inductive Addresses (r : Request) : View → String → Prop
  | escaped (h : r.hasAddress = true) : Addresses r .escaped r.urlPath
  | joined {s : Splitting} {query authority path after : List Char}
    (hquery : r.queryText? = some query) (haddress : s.address r query = authority ++ (path ++ after))
    (hauthority : ∀ c ∈ authority, Splitting.endsAuthority c = false)
    (hfirst : ∀ c ∈ (path ++ after).head?, Splitting.endsAuthority c = true)
    (hpath : ∀ c ∈ path, Splitting.endsPath c = false)
    (hafter : ∀ c ∈ after.head?, Splitting.endsPath c = true)
    (haccepts : s.refuses authority = false) : Addresses r (.joined s) (String.ofList path)

/-- A list is cut at the first character with a property. -/
theorem takeWhile_and_dropWhile_not {p : Char → Bool} {before after : List Char}
    (hbefore : ∀ c ∈ before, p c = false) (hafter : ∀ c ∈ after.head?, p c = true) :
    ((before ++ after).takeWhile fun c => !p c) = before ∧
      ((before ++ after).dropWhile fun c => !p c) = after := by
  have hall : ∀ c ∈ before, (!p c) = true := fun c hc => by rw [hbefore c hc]; rfl
  have hstop : (after.takeWhile fun c => !p c) = [] ∧ (after.dropWhile fun c => !p c) = after := by
    cases after with
    | nil => exact ⟨rfl, rfl⟩
    | cons c after =>
      have hc : ¬ (!p c) = true := by rw [hafter c rfl]; exact Bool.false_ne_true
      exact ⟨List.takeWhile_cons_of_neg hc, List.dropWhile_cons_of_neg hc⟩
  rw [List.takeWhile_append_of_pos hall, List.dropWhile_append_of_pos hall, hstop.1, hstop.2,
    List.append_nil]
  exact ⟨rfl, rfl⟩

theorem pathBy_eq_some_iff {v : View} {path : String} : r.pathBy v = some path ↔ r.Addresses v path := by
  cases v with
  | escaped =>
    rw [pathBy, Option.ite_none_right_eq_some, Option.some_inj]
    constructor
    · rintro ⟨h, rfl⟩
      exact .escaped h
    · rintro ⟨h⟩
      exact ⟨h, rfl⟩
  | joined s =>
    simp only [pathBy, Splitting.path?, Option.bind_eq_some_iff, Option.ite_none_left_eq_some,
      Option.some_inj, Bool.not_eq_true]
    constructor
    · rintro ⟨query, hquery, haccepts, rfl⟩
      let rest := (s.address r query).dropWhile fun c => !Splitting.endsAuthority c
      have hsplit : (rest.takeWhile fun c => !Splitting.endsPath c) ++
          (rest.dropWhile fun c => !Splitting.endsPath c) = rest := List.takeWhile_append_dropWhile
      refine .joined hquery (by rw [hsplit, List.takeWhile_append_dropWhile])
        (fun c hc => by simpa using List.mem_takeWhile_imp hc) (fun c hc => ?_)
        (fun c hc => by simpa using List.mem_takeWhile_imp hc)
        (fun c hc => by simpa using Text.head?_dropWhile_not _ rest c hc) haccepts
      rw [hsplit] at hc
      simpa using Text.head?_dropWhile_not _ (s.address r query) c hc
    · intro h
      cases h with
      | joined hquery haddress hauthority hfirst hpath hafter haccepts =>
        obtain ⟨htake, hdrop⟩ := takeWhile_and_dropWhile_not hauthority hfirst
        refine ⟨_, hquery, ?_, ?_⟩
        · rw [haddress, htake, haccepts]
        · rw [haddress, hdrop, (takeWhile_and_dropWhile_not hpath hafter).1]

theorem Addresses.hasAddress {v : View} {path : String} (h : r.Addresses v path) : r.hasAddress = true := by
  cases h with
  | escaped h => exact h
  | joined hquery => rw [Request.hasAddress, hquery]; rfl

theorem Addresses.unique {v : View} {path path' : String} (h : r.Addresses v path)
    (h' : r.Addresses v path') : path = path' :=
  Option.some.inj ((pathBy_eq_some_iff.mpr h).symm.trans (pathBy_eq_some_iff.mpr h'))

/-! ## Straight requests -/

/-- The characters that an escaped address has in another form, or not at all. -/
def bent : List Char := ['?', '#', '\\', '\t', '\r', '\n']

def Rooted (path : List Char) : Prop := ∀ c ∈ path.head?, c = '/'

/-- The path begins with a slash, or is empty, and holds no character that an address has in another form;
and where the host stands in the address, it holds no delimiter and is not refused. -/
def Straight (v : View) (r : Request) : Prop :=
  Rooted r.path.toList ∧ (∀ c ∈ r.path.toList, c ∉ bent) ∧ ∀ s, v = .joined s →
    (∀ c ∈ s.authority r, Splitting.endsAuthority c = false) ∧
      s.refuses ((s.authority r).filter Splitting.isKept) = false

theorem addressed_of_not_mem_bent {c : Char} (h : c ∉ bent) : addressed c = [c] := by
  simp only [bent, List.mem_cons, List.not_mem_nil, or_false, not_or] at h
  simp [addressed, h]

theorem flatMap_addressed {cs : List Char} (h : ∀ c ∈ cs, c ∉ bent) : cs.flatMap addressed = cs := by
  induction cs with
  | nil => rfl
  | cons c cs ih =>
    rw [List.flatMap_cons, addressed_of_not_mem_bent (h c List.mem_cons_self),
      ih fun d hd => h d (List.mem_cons_of_mem c hd)]
    rfl

theorem not_mem_bent_of_mem_addressed {c d : Char} (h : d ∈ addressed c) : d ∉ bent := by
  by_cases hc : c ∈ bent
  · simp only [bent, List.mem_cons, List.not_mem_nil, or_false] at hc
    -- three of the six are escaped, and the breaks and the tab leave nothing
    rcases hc with rfl | rfl | rfl | rfl | rfl | rfl <;> simp [addressed] at h
    all_goals rcases h with rfl | rfl | rfl <;> simp [bent]
  · rw [addressed_of_not_mem_bent hc, List.mem_singleton] at h
    exact h ▸ hc

theorem urlPath_eq_path_iff (r : Request) :
    r.urlPath = r.path ↔ Rooted r.path.toList ∧ ∀ c ∈ r.path.toList, c ∉ bent := by
  have hlist : r.urlPath = r.path ↔ (rooted r.path.toList).flatMap addressed = r.path.toList := by
    rw [urlPath, String.ext_iff, String.toList_ofList]
  rw [hlist]
  constructor
  · intro h
    have hbent : ∀ c ∈ r.path.toList, c ∉ bent := by
      intro c hc
      rw [← h] at hc
      obtain ⟨d, -, hd⟩ := List.mem_flatMap.mp hc
      exact not_mem_bent_of_mem_addressed hd
    refine ⟨fun c hc => ?_, hbent⟩
    by_contra hslash
    -- a slash put in front of the path makes its address longer
    cases hpath : r.path.toList with
    | nil => rw [hpath] at hc; cases hc
    | cons d cs =>
      rw [hpath] at h hc hbent
      obtain rfl : d = c := by simpa using hc
      have hrooted : rooted (d :: cs) = '/' :: d :: cs := by rw [rooted, if_neg hslash]
      rw [hrooted, List.flatMap_cons, flatMap_addressed hbent] at h
      have hlen := congrArg List.length h
      simp [addressed] at hlen
  · rintro ⟨hhead, hbent⟩
    cases hpath : r.path.toList with
    | nil => rfl
    | cons d cs =>
      rw [hpath] at hhead hbent
      have hrooted : rooted (d :: cs) = d :: cs := by rw [rooted, if_pos (hhead d rfl)]
      rw [hrooted, flatMap_addressed hbent]

theorem isKept_of_not_mem_bent {c : Char} (h : c ∉ bent) : Splitting.isKept c = true := by
  simp only [bent, List.mem_cons, List.not_mem_nil, or_false, not_or] at h
  simp [Splitting.isKept, h]

theorem endsPath_of_not_mem_bent {c : Char} (h : c ∉ bent) : Splitting.endsPath c = false := by
  simp only [bent, List.mem_cons, List.not_mem_nil, or_false, not_or] at h
  simp [Splitting.endsPath, h]

/-- What stands of a query in an address begins with a delimiter. -/
theorem eq_of_mem_head?_query {query : List Char} {c : Char}
    (h : c ∈ ((if query = [] then [] else '?' :: query).filter Splitting.isKept).head?) : c = '?' := by
  by_cases hnil : query = []
  · rw [if_pos hnil] at h
    cases h
  · rw [if_neg hnil, List.filter_cons_of_pos (by decide)] at h
    exact (Option.some.inj h).symm

/-- After the authority stands the slash of the path, or the delimiter of the query. -/
theorem endsAuthority_of_mem_head? {path query : List Char} {c : Char} (hrooted : Rooted path)
    (h : c ∈ (path ++ (if query = [] then [] else '?' :: query).filter Splitting.isKept).head?) :
    Splitting.endsAuthority c = true := by
  cases path with
  | nil =>
    rw [eq_of_mem_head?_query h]
    rfl
  | cons d cs =>
    obtain rfl : d = c := Option.some.inj h
    rw [hrooted d rfl]
    rfl

/-- The address of a straight request has the path of the request. -/
theorem addresses_path {v : View} (h : r.Straight v) (haddress : r.hasAddress = true) :
    r.Addresses v r.path := by
  obtain ⟨hrooted, hbent, hhost⟩ := h
  cases v with
  | escaped =>
    have hescaped : r.Addresses .escaped r.urlPath := .escaped haddress
    rwa [(r.urlPath_eq_path_iff).mpr ⟨hrooted, hbent⟩] at hescaped
  | joined s =>
    obtain ⟨hplain, haccepts⟩ := hhost s rfl
    obtain ⟨query, hquery⟩ := Option.isSome_iff_exists.mp haddress
    have hkept : r.path.toList.filter Splitting.isKept = r.path.toList :=
      List.filter_eq_self.mpr fun c hc => isKept_of_not_mem_bent (hbent c hc)
    have hsplit : s.address r query = (s.authority r).filter Splitting.isKept ++
        (r.path.toList ++ (if query = [] then [] else '?' :: query).filter Splitting.isKept) := by
      rw [Splitting.address, List.filter_append, List.filter_append, hkept, List.append_assoc]
    have hjoined : r.Addresses (.joined s) (String.ofList r.path.toList) :=
      .joined hquery hsplit (fun c hc => hplain c (List.mem_filter.mp hc).1)
        (fun _ => endsAuthority_of_mem_head? hrooted)
        (fun c hc => endsPath_of_not_mem_bent (hbent c hc))
        (fun c hc => eq_of_mem_head?_query hc ▸ rfl) haccepts
    rwa [String.ofList_toList] at hjoined

end Request

/-! ## The gate -/

namespace Gate

open Request (View)

def Entitles (g : Gate) (r : Request) : Prop := r.path ∈ g.openPaths ∨ r.Shows g.token

def Errs (v : View) (g : Gate) (r : Request) : Prop :=
  ¬ g.Entitles r ∧ ∀ path, r.Addresses v path → path ∈ g.openPaths

variable {v : View} {g : Gate} {r : Request}

theorem admitsBy_iff (hg : g.token ≠ "") (hr : r.isHttp = true) :
    g.admitsBy v r = true ↔ ∃ path, r.Addresses v path ∧ (path ∈ g.openPaths ∨ r.Shows g.token) := by
  rw [← Request.token_eq_iff hg]
  simp [admitsBy, hr, hg, Option.any_eq_true, Request.pathBy_eq_some_iff]

theorem admits_iff (hg : g.token ≠ "") (hr : r.isHttp = true) :
    g.admits r = true ↔ r.hasAddress = true ∧ (r.urlPath ∈ g.openPaths ∨ r.Shows g.token) := by
  rw [admits, admitsBy_iff hg hr]
  constructor
  · rintro ⟨_, ⟨haddress⟩, h⟩
    exact ⟨haddress, h⟩
  · rintro ⟨haddress, h⟩
    exact ⟨_, .escaped haddress, h⟩

theorem handleBy_of_admitsBy (h : g.admitsBy v r = true) (server : Request → Option Response) :
    g.handleBy v server r = server r := if_pos h

theorem handleBy_of_not_admitsBy (h : g.admitsBy v r ≠ true) (server : Request → Option Response) :
    g.handleBy v server r = if (r.pathBy v).isSome then some .unauthorized else none := if_neg h

theorem handle_of_admits (h : g.admits r = true) (server : Request → Option Response) :
    g.handle server r = server r := handleBy_of_admitsBy h server

theorem handle_of_not_admits (h : g.admits r ≠ true) (server : Request → Option Response) :
    g.handle server r = if r.hasAddress then some .unauthorized else none := by
  rw [handle, handleBy_of_not_admitsBy h, Request.pathBy]
  cases r.hasAddress <;> rfl

theorem handleBy_of_not_addresses (hg : g.token ≠ "") (hr : r.isHttp = true)
    (hno : ∀ path, ¬ r.Addresses v path) (server : Request → Option Response) :
    g.handleBy v server r = none := by
  have hnone : r.pathBy v = none :=
    Option.eq_none_iff_forall_ne_some.mpr fun path h => hno path (Request.pathBy_eq_some_iff.mp h)
  have hshut : g.admitsBy v r ≠ true := fun h =>
    ((admitsBy_iff hg hr).mp h).elim fun path h => hno path h.1
  rw [handleBy_of_not_admitsBy hshut, hnone]
  rfl

theorem Errs.handleBy_eq (h : g.Errs v r) (hg : g.token ≠ "") (hr : r.isHttp = true) {path : String}
    (haddress : r.Addresses v path) (server : Request → Option Response) :
    g.handleBy v server r = server r :=
  handleBy_of_admitsBy ((admitsBy_iff hg hr).mpr ⟨path, haddress, Or.inl (h.2 path haddress)⟩) server

theorem Errs.not_straight (h : g.Errs v r) {path : String} (haddress : r.Addresses v path) :
    ¬ r.Straight v := fun hstraight =>
  h.1 (Or.inl (h.2 _ (Request.addresses_path hstraight haddress.hasAddress)))

/-- A request that is not entitled has the address of no open path, unless the gate errs on it. -/
theorem exists_closed_of_not_errs (hnot : ¬ g.Entitles r) (h : ¬ g.Errs v r) :
    ∃ path, r.Addresses v path ∧ path ∉ g.openPaths := by
  by_contra hnone
  exact h ⟨hnot, fun path haddress => by_contra fun hshut => hnone ⟨path, haddress, hshut⟩⟩

theorem not_admitsBy_of_not_entitles (hg : g.token ≠ "") (hr : r.isHttp = true)
    (hnot : ¬ g.Entitles r) {path : String} (haddress : r.Addresses v path)
    (hclosed : path ∉ g.openPaths) : g.admitsBy v r ≠ true := by
  intro h
  obtain ⟨path', haddress', hopen | hshows⟩ := (admitsBy_iff hg hr).mp h
  · exact hclosed (haddress.unique haddress' ▸ hopen)
  · exact hnot (Or.inr hshows)

/-- A request that is not entitled is refused, whatever server stands behind the gate and whichever way the
path of its address is come by, unless the gate errs on it. Where it errs the request is not straight and
gets to the server, or the address of the request cannot be read, and it has no answer. -/
theorem refuses_unentitled_iff (v : View) (hg : g.token ≠ "") (hr : r.isHttp = true) :
    ((g.admitsBy v r = true → g.Entitles r) ∧
        (¬ g.Entitles r → ∀ server, g.handleBy v server r = some .unauthorized) ↔ ¬ g.Errs v r) ∧
      (∀ path, g.Errs v r → r.Addresses v path → path ∈ g.openPaths ∧ ¬ r.Straight v ∧
        ∀ server, g.handleBy v server r = server r) ∧
      (g.Errs v r → (∀ path, ¬ r.Addresses v path) → ∀ server, g.handleBy v server r = none) := by
  refine ⟨⟨?_, fun hno => ⟨fun h => ?_, fun hnot server => ?_⟩⟩,
    fun path h haddress => ⟨h.2 path haddress, h.not_straight haddress, h.handleBy_eq hg hr haddress⟩,
    fun _ => handleBy_of_not_addresses hg hr⟩
  · rintro ⟨-, hrefuses⟩ h
    -- a server that gives no answer tells its own answers from a refusal
    have hanswer := hrefuses h.1 fun _ => none
    by_cases haddress : ∃ path, r.Addresses v path
    · obtain ⟨path, haddress⟩ := haddress
      rw [h.handleBy_eq hg hr haddress] at hanswer
      cases hanswer
    · rw [handleBy_of_not_addresses hg hr fun path hpath => haddress ⟨path, hpath⟩] at hanswer
      cases hanswer
  · by_contra hnot
    obtain ⟨path, haddress, hclosed⟩ := exists_closed_of_not_errs hnot hno
    exact not_admitsBy_of_not_entitles hg hr hnot haddress hclosed h
  · obtain ⟨path, haddress, hclosed⟩ := exists_closed_of_not_errs hnot hno
    rw [handleBy_of_not_admitsBy (not_admitsBy_of_not_entitles hg hr hnot haddress hclosed),
      Request.pathBy_eq_some_iff.mpr haddress]
    rfl

/-- A header with another token is what counts, although the query has the right one. -/
theorem refuses_unentitled_of_wrong_bearer :
    let g := Gate.ofToken "t"
    let r : Request := ⟨true, "GET", "/mcp", "token=t", [("host", "h:1"), ("AUTHORIZATION", "Bearer  u ")]⟩
    g.token ≠ "" ∧ r.isHttp = true ∧ ¬ g.Entitles r ∧
      ∀ server, g.handleBy (.joined ⟨"", fun _ => false⟩) server r = some .unauthorized := by
  intro g r
  have hg : g.token ≠ "" := by decide
  have hnot : ¬ g.Entitles r := by
    rintro (hopen | hshows)
    · exact absurd hopen (by decide)
    · exact absurd ((Request.token_eq_iff hg).mpr hshows) (by decide +kernel)
  have haddress : r.Addresses (.joined ⟨"", fun _ => false⟩) "/mcp" :=
    Request.pathBy_eq_some_iff.mp (by decide +kernel)
  have hno : ¬ g.Errs (.joined ⟨"", fun _ => false⟩) r := fun h =>
    absurd (h.2 _ haddress) (by decide +kernel)
  exact ⟨hg, rfl, hnot, ((refuses_unentitled_iff _ hg rfl).1.mpr hno).2 hnot⟩

/-- A line break inside the path of the health of the server is not in the address, and a host may bring
that path along. -/
theorem admits_broken_health_path :
    let g := Gate.ofToken "t"
    let broken : Request := ⟨true, "GET", "/hea\nlth", "", []⟩
    let hosted : Request := ⟨true, "GET", "/mcp", "", [("host", "x/health?")]⟩
    let v : View := .joined ⟨"", fun _ => false⟩
    ¬ g.Entitles broken ∧ ¬ g.Entitles hosted ∧
      (∀ server, g.handleBy .escaped server broken = server broken) ∧
      (∀ server, g.handleBy v server broken = server broken) ∧
      ∀ server, g.handleBy v server hosted = server hosted := by
  intro g broken hosted v
  have hg : g.token ≠ "" := by decide
  refine ⟨?_, ?_, handleBy_of_admitsBy (by decide +kernel), handleBy_of_admitsBy (by decide +kernel),
    handleBy_of_admitsBy (by decide +kernel)⟩
  · rintro (hopen | hshows)
    · exact absurd hopen (by decide)
    · exact absurd ((Request.token_eq_iff hg).mpr hshows) (by decide +kernel)
  · rintro (hopen | hshows)
    · exact absurd hopen (by decide)
    · exact absurd ((Request.token_eq_iff hg).mpr hshows) (by decide +kernel)

end Gate
end SerialAudit
