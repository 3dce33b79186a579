import SerialAudit.Proofs.Access.Entitlement

/-! Requests that carry the token, and those of them that the gate keeps out.

* `Text.Bare` : a text without blanks at its ends;
* `Request.Carries` : the token is what the query gives, or what stands in the header after the scheme;
* `Request.Bearing` : the header that counts bears some text;
* `Gate.Misses` : the header of a request bears another text than the token, or its address cannot be
  read.

A request that carries the token shows it unless its header bears something else
(`Carries.shows_iff`), so that it is handed on but for the requests that the gate misses
(`hands_on_carrier_iff`). A header with the token itself bears something else only if the token is not
bare (`bearing_of_header`). -/
namespace SerialAudit
set_option autoImplicit false

namespace Text

def Bare (text : List Char) : Prop :=
  (∀ c ∈ text.head?, isBlank c = false) ∧ ∀ c ∈ text.getLast?, isBlank c = false

theorem trim_eq_self_iff (text : List Char) : trim isBlank text = text ↔ Bare text := by
  constructor
  · intro h
    obtain ⟨-, -, -, -, -, hhead, hlast⟩ := trims_trim isBlank text
    rw [h] at hhead hlast
    exact ⟨hhead, hlast⟩
  · rintro ⟨hhead, hlast⟩
    have htrims : Trims isBlank text text := ⟨[], [], by simp, by simp, by simp, hhead, hlast⟩
    exact htrims.trim_eq

end Text

namespace Request

variable {r : Request} {token other : String}

inductive Carries (r : Request) (token : String) : Prop
  | header (h : r.FirstHeader "authorization" ("Bearer " ++ token))
  | parameter (h : r.LastParameter "token" token)

def Bearing (r : Request) (text : String) : Prop :=
  ∃ value, r.FirstHeader "authorization" value ∧ Bears value text

theorem bearing_iff : (r.header? "authorization").bind bearer? = some other ↔ r.Bearing other := by
  simp only [Option.bind_eq_some_iff, header?_eq_some_iff, bearer?_eq_some_iff]
  exact Iff.rfl

theorem Bearing.unique (h : r.Bearing token) (h' : r.Bearing other) : token = other :=
  Option.some.inj ((bearing_iff.mpr h).symm.trans (bearing_iff.mpr h'))

/-- After the scheme the header bears the token without its outer blanks. -/
theorem bearing_of_header (h : r.FirstHeader "authorization" ("Bearer " ++ token)) :
    r.Bearing (Text.strip token) := by
  refine ⟨_, h, token.toList, String.toList_append, ?_⟩
  rw [Text.strip, String.toList_ofList]
  exact Text.trims_trim Text.isBlank token.toList

theorem Carries.shows_iff (h : r.Carries token) :
    r.Shows token ↔ ∀ other, r.Bearing other → other = token := by
  constructor
  · rintro (⟨hfirst, hbears⟩ | ⟨hnone, -⟩) other hother
    · exact hother.unique ⟨_, hfirst, hbears⟩
    · obtain ⟨value, hvalue, hbears⟩ := hother
      exact absurd hbears (hnone value hvalue other)
  · intro hall
    have hshows : ∀ text, r.Bearing text → r.Shows token := by
      intro text htext
      obtain rfl := hall text htext
      obtain ⟨value, hfirst, hbears⟩ := htext
      exact .header hfirst hbears
    cases h with
    | header h => exact hshows _ (bearing_of_header h)
    | parameter h =>
      by_cases hbearing : ∃ text, r.Bearing text
      · exact hbearing.elim hshows
      · exact .parameter (fun value hvalue text hbears => hbearing ⟨text, value, hvalue, hbears⟩) h

end Request

namespace Gate

variable {g : Gate} {r : Request}

/-- The requests on which a token in the right place is of no use. -/
def Misses (g : Gate) (r : Request) : Prop :=
  r.isHttp = true ∧ (r.hasAddress = true →
    r.urlPath ∉ g.openPaths ∧ ∃ other, r.Bearing other ∧ other ≠ g.token)

theorem admits_of_carries_iff (hg : g.token ≠ "") (hc : r.Carries g.token) :
    g.admits r = true ↔ ¬ g.Misses r := by
  cases hr : r.isHttp with
  | false => simp [admits, admitsBy, Misses, hr]
  | true =>
    rw [admits_iff hg hr, hc.shows_iff]
    constructor
    · rintro ⟨haddress, hopen⟩ ⟨-, hmisses⟩
      obtain ⟨hshut, other, hother, hne⟩ := hmisses haddress
      rcases hopen with hopen | hall
      · exact hshut hopen
      · exact hne (hall other hother)
    · intro hno
      have haddress : r.hasAddress = true := by
        by_contra h
        exact hno ⟨hr, fun haddress => absurd haddress h⟩
      refine ⟨haddress, or_iff_not_imp_left.mpr fun hshut other hother => ?_⟩
      by_contra hne
      exact hno ⟨hr, fun _ => ⟨hshut, other, hother, hne⟩⟩

theorem handle_eq_server_iff : (∀ server, g.handle server r = server r) ↔ g.admits r = true := by
  constructor
  · intro h
    by_contra hnot
    have hanswer := h fun _ => some .healthy
    rw [handle_of_not_admits hnot] at hanswer
    split at hanswer <;> cases hanswer
  · exact handle_of_admits

/-- Of the requests that carry the token in one of the two places, whatever else they hold, exactly those
are handed on that the gate does not miss; the others are refused, or have no answer where the address
cannot be read. Where the header has the token after the scheme, it bears something else exactly if a
blank stands at one of the token's ends. -/
theorem hands_on_carrier_iff (hg : g.token ≠ "") (hc : r.Carries g.token) :
    ((∀ server, g.handle server r = server r) ↔ ¬ g.Misses r) ∧
      (g.Misses r → ∀ server,
        g.handle server r = if r.hasAddress then some .unauthorized else none) ∧
      (r.FirstHeader "authorization" ("Bearer " ++ g.token) →
        ((∃ other, r.Bearing other ∧ other ≠ g.token) ↔ ¬ Text.Bare g.token.toList)) := by
  have hadmits := admits_of_carries_iff hg hc
  refine ⟨handle_eq_server_iff.trans hadmits, fun hmisses server => ?_, fun hfirst => ?_⟩
  · exact handle_of_not_admits (fun h => hadmits.mp h hmisses) server
  · have hstrip : Text.strip g.token = g.token ↔ Text.Bare g.token.toList := by
      rw [Text.strip, String.ext_iff, String.toList_ofList, Text.trim_eq_self_iff]
    rw [← hstrip]
    constructor
    · rintro ⟨other, hother, hne⟩ hbare
      exact hne (hother.unique (hbare ▸ Request.bearing_of_header hfirst))
    · exact fun hbare => ⟨_, Request.bearing_of_header hfirst, hbare⟩

/-- A query with another token does not matter beside the right header. -/
theorem hands_on_carrier_of_other_parameter :
    let g := Gate.ofToken "t"
    let r : Request := ⟨true, "GET", "/mcp", "token=u", [("X", "1"), ("AUTHORIZATION", "Bearer t")]⟩
    g.token ≠ "" ∧ r.Carries g.token ∧ ∀ server, g.handle server r = server r := by
  intro g r
  have hg : g.token ≠ "" := by decide
  have hfirst : r.FirstHeader "authorization" ("Bearer " ++ g.token) :=
    Request.header?_eq_some_iff.mp (by decide +kernel)
  have hadmits : g.admits r = true := by decide +kernel
  have hc : r.Carries g.token := .header hfirst
  exact ⟨hg, hc, (hands_on_carrier_iff hg hc).1.mpr ((admits_of_carries_iff hg hc).mp hadmits)⟩

/-- Another token in the header makes the one in the query count for nothing. -/
theorem refuses_carrier_with_other_bearer :
    let g := Gate.ofToken "t"
    let r : Request := ⟨true, "GET", "/mcp", "token=t", [("Authorization", "Bearer u")]⟩
    g.token ≠ "" ∧ r.Carries g.token ∧ ∀ server, g.handle server r = some .unauthorized := by
  intro g r
  have hg : g.token ≠ "" := by decide
  have hlast : r.LastParameter "token" g.token :=
    Request.last?_eq_some_iff.mp (by decide +kernel)
  have hshut : g.admits r ≠ true := by decide +kernel
  have haddress : r.hasAddress = true := by decide +kernel
  refine ⟨hg, .parameter hlast, fun server => ?_⟩
  rw [handle_of_not_admits hshut, haddress]
  rfl

end Gate
end SerialAudit
