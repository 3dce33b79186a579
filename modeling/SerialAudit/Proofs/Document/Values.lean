import SerialAudit.Document.Value
import SerialAudit.Proofs.Document.Nodes

/-! The value of a document without aliases, tags of its own and merge keys.

* `Reads` : what becomes known about a node;
* `Tame` : every node is read, and stands before the nodes that it consists of;
* `Progress` : what holds while the nodes are gone through.

Rounds keep the progress (`run_rounds`), so that the value of a tame document is the one that its nodes
have (`value_of_tame`). -/
namespace SerialAudit.Document
set_option autoImplicit false

/-- A scalar is read from its text, so that it is neither gone through nor resolved. -/
theorem Tag.of_isScalar {tag : Tag} (h : tag.isScalar = true) :
    tag.isCollection = false ∧ tag ≠ .merge ∧ tag ≠ .value := by
  cases tag <;> first | exact ⟨rfl, Tag.noConfusion, Tag.noConfusion⟩ | cases h

def nodeAt (nodes : Array Node) (n : Nat) : Node := nodes[n]?.getD .empty

/-- The nodes that a node consists of. -/
def Part.children : Part → List Nat
  | .items ns => ns
  | .entries es => es.flatMap fun e => [e.1, e.2]
  | _ => []

inductive Reads (nodes : Array Node) (n : Nat) : Part → Prop
  | scalar {tag : Tag} {text : String} {v : Value} (hnode : nodeAt nodes n = ⟨tag, .scalar text⟩)
    (htag : tag.isScalar = true) (hvalue : Value.ofScalar tag text = .ok v) : Reads nodes n (.scalar v)
  | items {ns : List Nat} (hnode : nodeAt nodes n = ⟨.sequence, .sequence ns⟩) : Reads nodes n (.items ns)
  | entries {es : List (Nat × Nat)} (hnode : nodeAt nodes n = ⟨.mapping, .mapping es⟩)
    (hlength : es.length < Evaluation.mergeSteps)
    (hkeys : ∀ e ∈ es, (nodeAt nodes e.1).tag.isCollection = false ∧
      (nodeAt nodes e.1).tag ≠ .merge ∧ (nodeAt nodes e.1).tag ≠ .value) : Reads nodes n (.entries es)

def Tame (nodes : Array Node) : Prop :=
  ∀ n < nodes.size, ∃ p, Reads nodes n p ∧ ∀ c ∈ p.children, n < c ∧ c < nodes.size

namespace Evaluation

variable {nodes : Array Node} {bound n m : Nat} {queue : List Nat} {e e' : Evaluation}

def Met (e : Evaluation) (n : Nat) : Prop := ∃ p, e.parts[n]? = some (some p)

/-- The nodes that were met stay met. -/
def Later (e e' : Evaluation) : Prop := ∀ n, e.Met n → e'.Met n

/-- Collections wait in the queue or among those that were met; all else that is known is true, and
leads to nodes that were met. -/
structure Progress (nodes : Array Node) (bound : Nat) (queue : List Nat) (e : Evaluation) : Prop where
  nodes_eq : e.nodes = nodes
  size_eq : e.parts.size = nodes.size
  known : ∀ n p, e.parts[n]? = some (some p) →
    (p = .waiting ∧ (n ∈ queue ∨ n ∈ e.met)) ∨ (Reads nodes n p ∧ ∀ c ∈ p.children, e.Met c)
  met : ∀ n ∈ e.met, bound ≤ n ∧ n < nodes.size ∧ (nodeAt nodes n).tag.isCollection = true

theorem run_node (h : Progress nodes bound queue e) (n : Nat) :
    (node n).run e = .ok (nodeAt nodes n, e) := by
  rw [← h.nodes_eq]
  rfl

/-! ## Steps -/

/-- The state in which a part of a node is known. -/
def learn (e : Evaluation) (n : Nat) (part : Part) : Evaluation :=
  { e with parts := e.parts.setIfInBounds n (some part) }

theorem getElem?_learn (hn : n < e.parts.size) (part : Part) (m : Nat) :
    (e.learn n part).parts[m]? = if n = m then some (some part) else e.parts[m]? := by
  rw [learn, Array.getElem?_setIfInBounds, if_pos hn]

theorem met_learn (hn : n < e.parts.size) (part : Part) (m : Nat) :
    (e.learn n part).Met m ↔ n = m ∨ e.Met m := by
  rw [Met, getElem?_learn hn]
  by_cases hm : n = m
  · simp [hm]
  · simp [hm, Met]

theorem later_learn (hn : n < e.parts.size) (part : Part) : e.Later (e.learn n part) :=
  fun m hm => (met_learn hn part m).mpr (.inr hm)

theorem Later.trans {e'' : Evaluation} (h : e.Later e') (h' : e'.Later e'') : e.Later e'' :=
  fun m hm => h' m (h m hm)

/-- A part becomes known that is true and leads to nodes that were met. -/
theorem Progress.learn (h : Progress nodes bound (n :: queue) e) (hn : n < nodes.size) {p : Part}
    (hp : Reads nodes n p) (hchildren : ∀ c ∈ p.children, e.Met c) :
    Progress nodes bound queue (e.learn n p) where
  nodes_eq := h.nodes_eq
  size_eq := by rw [Evaluation.learn, Array.size_setIfInBounds, h.size_eq]
  known m q hq := by
    have hsize : n < e.parts.size := h.size_eq.symm ▸ hn
    rw [getElem?_learn hsize] at hq
    split at hq
    · rename_i hm
      obtain rfl := Option.some.inj (Option.some.inj hq)
      subst hm
      exact .inr ⟨hp, fun c hc => later_learn hsize p c (hchildren c hc)⟩
    · rename_i hm
      obtain ⟨hwait, hwhere⟩ | ⟨hreads, hall⟩ := h.known m q hq
      · refine .inl ⟨hwait, hwhere.imp_left fun hmem => ?_⟩
        exact (List.mem_cons.mp hmem).resolve_left (Ne.symm hm)
      · exact .inr ⟨hreads, fun c hc => later_learn hsize p c (hall c hc)⟩
  met := h.met

/-- A collection is met that was not met before. -/
theorem Progress.wait (h : Progress nodes bound queue e) (hn : n < nodes.size) (hbound : bound ≤ n)
    (htag : (nodeAt nodes n).tag.isCollection = true) :
    Progress nodes bound queue { e.learn n .waiting with met := n :: e.met } where
  nodes_eq := h.nodes_eq
  size_eq := by
    change (e.learn n .waiting).parts.size = nodes.size
    rw [Evaluation.learn, Array.size_setIfInBounds, h.size_eq]
  known m q hq := by
    have hsize : n < e.parts.size := h.size_eq.symm ▸ hn
    change (e.learn n .waiting).parts[m]? = some (some q) at hq
    rw [getElem?_learn hsize] at hq
    split at hq
    · rename_i hm
      exact .inl ⟨(Option.some.inj (Option.some.inj hq)).symm, .inr (hm ▸ List.mem_cons_self)⟩
    · obtain ⟨hwait, hwhere⟩ | ⟨hreads, hall⟩ := h.known m q hq
      · exact .inl ⟨hwait, hwhere.imp_right fun hmem => List.mem_cons_of_mem n hmem⟩
      · exact .inr ⟨hreads, fun c hc => later_learn hsize .waiting c (hall c hc)⟩
  met m hm := by
    obtain rfl | hm := List.mem_cons.mp hm
    · exact ⟨hbound, hn, htag⟩
    · exact h.met m hm

theorem Progress.more (h : Progress nodes bound queue e) (n : Nat) :
    Progress nodes bound (n :: queue) e where
  nodes_eq := h.nodes_eq
  size_eq := h.size_eq
  known m q hq := (h.known m q hq).imp_left fun hw =>
    ⟨hw.1, hw.2.imp_left fun hmem => List.mem_cons_of_mem n hmem⟩
  met := h.met

theorem scalarValue_eq {tag : Tag} {text : String} (hnode : nodeAt nodes n = ⟨tag, .scalar text⟩)
    (htag : tag.isScalar = true) : scalarValue nodes n = Value.ofScalar tag text := by
  rw [nodeAt] at hnode
  rw [scalarValue, hnode]
  dsimp only
  rw [if_pos htag]
  have htext : scalarText nodes (nodes.size + 1) n = .ok text := by
    rw [scalarText, hnode]
  rw [htext]
  cases tag <;> rfl

theorem run_meet_eq (e : Evaluation) (m : Nat) : (meet m).run e =
    if (e.parts[m]?.bind id).isSome then .ok ((), e)
    else if (nodeAt e.nodes m).tag.isCollection then
      .ok ((), { e.learn m .waiting with met := m :: e.met })
    else (scalarValue e.nodes m).map fun v => ((), e.learn m (.scalar v)) := by
  have hstate : (get : Evaluating Evaluation).run e = .ok (e, e) := rfl
  have hnode : (node m).run e = .ok (nodeAt e.nodes m, e) := rfl
  rw [meet, run_bind hstate]
  split
  · rfl
  · rw [run_bind hnode]
    split
    · rfl
    · cases scalarValue e.nodes m <;> rfl

theorem run_meet (h : Progress nodes bound queue e) (hm : m < nodes.size) (hbound : bound ≤ m)
    (hreads : ∃ p, Reads nodes m p) :
    ∃ e', (meet m).run e = .ok ((), e') ∧ Progress nodes bound queue e' ∧ e.Later e' ∧ e'.Met m := by
  have hsize : m < e.parts.size := h.size_eq.symm ▸ hm
  rw [run_meet_eq, h.nodes_eq]
  split
  · rename_i hknown
    obtain ⟨p, hp⟩ := Option.isSome_iff_exists.mp hknown
    obtain ⟨q, hq, rfl⟩ := Option.bind_eq_some_iff.mp hp
    exact ⟨e, rfl, h, fun _ hn => hn, p, hq⟩
  · split
    · rename_i htag
      exact ⟨_, rfl, h.wait hm hbound htag, later_learn hsize .waiting,
        (met_learn hsize .waiting m).mpr (.inl rfl)⟩
    · rename_i htag
      obtain ⟨p, hp⟩ := hreads
      cases hp with
      | scalar hnode hscalar hvalue =>
        rw [scalarValue_eq hnode hscalar, hvalue]
        exact ⟨_, rfl, (h.more m).learn hm (.scalar hnode hscalar hvalue) nofun, later_learn hsize _,
          (met_learn hsize _ m).mpr (.inl rfl)⟩
      | items hnode =>
        rw [hnode] at htag
        exact absurd rfl htag
      | entries hnode =>
        rw [hnode] at htag
        exact absurd rfl htag

/-- Steps that keep the progress and meet some nodes each meet all of them in turn. -/
theorem run_forM {α : Type} {f : α → Evaluating Unit} (reached : α → List Nat) {xs : List α}
    (hf : ∀ x ∈ xs, ∀ e, Progress nodes bound queue e → ∃ e', (f x).run e = .ok ((), e') ∧
      Progress nodes bound queue e' ∧ e.Later e' ∧ ∀ m ∈ reached x, e'.Met m)
    (h : Progress nodes bound queue e) :
    ∃ e', (xs.forM f).run e = .ok ((), e') ∧ Progress nodes bound queue e' ∧ e.Later e' ∧
      ∀ m ∈ xs.flatMap reached, e'.Met m := by
  induction xs generalizing e with
  | nil => exact ⟨e, rfl, h, fun _ hn => hn, nofun⟩
  | cons x xs ih =>
    obtain ⟨e₁, hrun₁, hprogress₁, hlater₁, hmet₁⟩ := hf x List.mem_cons_self e h
    obtain ⟨e₂, hrun₂, hprogress₂, hlater₂, hmet₂⟩ :=
      ih (fun y hy => hf y (List.mem_cons_of_mem x hy)) hprogress₁
    refine ⟨e₂, (run_bind hrun₁).trans hrun₂, hprogress₂, hlater₁.trans hlater₂, fun m hm => ?_⟩
    rw [List.flatMap_cons, List.mem_append] at hm
    cases hm with
    | inl hm => exact hlater₂ m (hmet₁ m hm)
    | inr hm => exact hmet₂ m hm

/-- Nodes that may be met from a bound on. -/
def Reachable (nodes : Array Node) (bound m : Nat) : Prop := bound ≤ m ∧ m < nodes.size

theorem run_meet_of_tame (htame : Tame nodes) (hm : Reachable nodes bound m)
    (h : Progress nodes bound queue e) :
    ∃ e', (meet m).run e = .ok ((), e') ∧ Progress nodes bound queue e' ∧ e.Later e' ∧ e'.Met m := by
  obtain ⟨p, hp, -⟩ := htame m hm.2
  exact run_meet h hm.2 hm.1 ⟨p, hp⟩

theorem run_meetEntry (htame : Tame nodes) {k v : Nat} (hkey : (nodeAt nodes k).tag.isCollection = false)
    (hk : Reachable nodes bound k) (hv : Reachable nodes bound v) (h : Progress nodes bound queue e) :
    ∃ e', (meetEntry (k, v)).run e = .ok ((), e') ∧ Progress nodes bound queue e' ∧ e.Later e' ∧
      ∀ m ∈ [k, v], e'.Met m := by
  obtain ⟨e₁, hrun₁, hprogress₁, hlater₁, hmet₁⟩ := run_meet_of_tame htame hk h
  obtain ⟨e₂, hrun₂, hprogress₂, hlater₂, hmet₂⟩ := run_meet_of_tame htame hv hprogress₁
  refine ⟨e₂, ?_, hprogress₂, hlater₁.trans hlater₂, ?_⟩
  · rw [meetEntry, run_bind (run_node h k), hkey]
    exact (run_bind hrun₁).trans hrun₂
  · simp only [List.forall_mem_cons]
    exact ⟨hlater₂ k hmet₁, hmet₂, nofun⟩

/-! ## Merging -/

/-- Without merge keys there is nothing to merge. -/
theorem run_mergeFrom (h : Progress nodes bound queue e) {es : List (Nat × Nat)}
    (hnode : nodeAt nodes n = ⟨.mapping, .mapping es⟩)
    (hkeys : ∀ e ∈ es, (nodeAt nodes e.1).tag ≠ .merge ∧ (nodeAt nodes e.1).tag ≠ .value)
    {fuel position : Nat} (hposition : position ≤ es.length) (hfuel : es.length < position + fuel) :
    (mergeFrom fuel n position []).run e = .ok ((), e) := by
  have hentries : (entries n).run e = .ok (es, e) := by
    rw [entries, run_bind (run_node h n), hnode]
    rfl
  induction fuel generalizing position with
  | zero => omega
  | succ fuel ih =>
    rw [mergeFrom, run_bind hentries]
    cases hentry : es[position]? with
    | none => rfl
    | some entry =>
      obtain ⟨k, v⟩ := entry
      obtain ⟨hmerge, hvalue⟩ := hkeys (k, v) (List.mem_of_getElem? hentry)
      dsimp only
      rw [run_bind (run_node h k)]
      split
      · rename_i htag
        exact absurd htag hmerge
      · rename_i htag
        exact absurd htag hvalue
      · have hlt := (List.getElem?_eq_some_iff.mp hentry).1
        exact ih hlt (by omega)

/-! ## Collections -/

/-- A collection that was in the queue is known afterwards, and the nodes that it consists of are met. -/
theorem run_visit (htame : Tame nodes) (hn : Reachable nodes bound n)
    (htag : (nodeAt nodes n).tag.isCollection = true) (h : Progress nodes (bound + 1) (n :: queue) e) :
    ∃ e', (visit n).run e = .ok ((), e') ∧ Progress nodes (bound + 1) queue e' ∧ e.Later e' := by
  obtain ⟨p, hp, hchildren⟩ := htame n hn.2
  have hreach : ∀ c ∈ p.children, Reachable nodes (bound + 1) c := fun c hc =>
    ⟨Nat.succ_le_of_lt (Nat.lt_of_le_of_lt hn.1 (hchildren c hc).1), (hchildren c hc).2⟩
  have hknow : ∀ e₁, Progress nodes (bound + 1) (n :: queue) e₁ → e.Later e₁ →
      (∀ c ∈ p.children, e₁.Met c) → ∃ e', (know n p).run e₁ = .ok ((), e') ∧
        Progress nodes (bound + 1) queue e' ∧ e.Later e' := fun e₁ h₁ hlater hmet =>
    ⟨e₁.learn n p, rfl, h₁.learn hn.2 hp hmet,
      hlater.trans (later_learn (h₁.size_eq.symm ▸ hn.2) p)⟩
  -- what it consists of is met first, and only then is it known
  cases hp with
  | @scalar tag text v hnode hscalar =>
    rw [hnode] at htag
    rw [(Tag.of_isScalar hscalar).1] at htag
    cases htag
  | @items ns hnode =>
    obtain ⟨e₁, hrun, hprogress, hlater, hmet⟩ := run_forM (fun m => [m])
      (fun m hm e he => by
        obtain ⟨e₁, hrun, hprogress, hlater, hmet⟩ := run_meet_of_tame htame (hreach m hm) he
        exact ⟨e₁, hrun, hprogress, hlater, by simpa using hmet⟩) h
    have hchildren : ∀ c ∈ (Part.items ns).children, e₁.Met c := by simpa [Part.children] using hmet
    obtain ⟨e', hrun', hprogress', hlater'⟩ := hknow e₁ hprogress hlater hchildren
    refine ⟨e', ?_, hprogress', hlater'⟩
    rw [visit, run_bind (run_node h n), hnode]
    exact (run_bind hrun).trans hrun'
  | @entries es hnode hlength hkeys =>
    have hmerge : (merge n).run e = .ok (es, e) := by
      rw [merge, run_bind (run_mergeFrom h hnode (fun x hx => (hkeys x hx).2) (Nat.zero_le _)
        (by rwa [Nat.zero_add]))]
      rw [entries, run_bind (run_node h n), hnode]
      rfl
    obtain ⟨e₁, hrun, hprogress, hlater, hmet⟩ := run_forM (fun x : Nat × Nat => [x.1, x.2])
      (fun x hx e he => run_meetEntry htame (hkeys x hx).1
        (hreach x.1 (List.mem_flatMap.mpr ⟨x, hx, List.mem_cons_self⟩))
        (hreach x.2 (List.mem_flatMap.mpr ⟨x, hx, List.mem_cons_of_mem _ List.mem_cons_self⟩)) he) h
    obtain ⟨e', hrun', hprogress', hlater'⟩ := hknow e₁ hprogress hlater hmet
    refine ⟨e', ?_, hprogress', hlater'⟩
    rw [visit, run_bind (run_node h n), hnode]
    exact (run_bind hmerge).trans ((run_bind hrun).trans hrun')

theorem run_forM_visit (htame : Tame nodes) {ns : List Nat}
    (hns : ∀ n ∈ ns, Reachable nodes bound n ∧ (nodeAt nodes n).tag.isCollection = true)
    (h : Progress nodes (bound + 1) ns e) :
    ∃ e', (ns.forM visit).run e = .ok ((), e') ∧ Progress nodes (bound + 1) [] e' ∧ e.Later e' := by
  induction ns generalizing e with
  | nil => exact ⟨e, rfl, h, fun _ hn => hn⟩
  | cons n ns ih =>
    obtain ⟨hn, htag⟩ := hns n List.mem_cons_self
    obtain ⟨e₁, hrun₁, hprogress₁, hlater₁⟩ := run_visit htame hn htag h
    obtain ⟨e₂, hrun₂, hprogress₂, hlater₂⟩ :=
      ih (fun m hm => hns m (List.mem_cons_of_mem n hm)) hprogress₁
    exact ⟨e₂, (run_bind hrun₁).trans hrun₂, hprogress₂, hlater₁.trans hlater₂⟩

/-- The nodes that were met are the queue of the next round. -/
theorem Progress.round (h : Progress nodes bound [] e) (hqueue : ∀ n, n ∈ queue ↔ n ∈ e.met) :
    Progress nodes (bound + 1) queue { e with met := [] } ∧
      ∀ n ∈ queue, Reachable nodes bound n ∧ (nodeAt nodes n).tag.isCollection = true := by
  refine ⟨⟨h.nodes_eq, h.size_eq, fun n p hp => ?_, nofun⟩, fun n hn => ?_⟩
  · refine (h.known n p hp).imp_left fun hw => ⟨hw.1, .inl ?_⟩
    exact (hqueue n).mpr (hw.2.resolve_left List.not_mem_nil)
  · obtain ⟨hlow, hhigh, htag⟩ := h.met n ((hqueue n).mp hn)
    exact ⟨⟨hlow, hhigh⟩, htag⟩

/-- Everything is known in the end. A round goes on to nodes with higher numbers, so that there are no
more rounds than nodes. -/
theorem run_rounds (htame : Tame nodes) {fuel : Nat} {ns : List Nat}
    (hns : ∀ n ∈ ns, Reachable nodes bound n ∧ (nodeAt nodes n).tag.isCollection = true)
    (hfuel : nodes.size ≤ bound + fuel) (h : Progress nodes (bound + 1) ns e) (hmet : e.met = []) :
    ∃ e' bound', (rounds fuel ns).run e = .ok ((), e') ∧ Progress nodes bound' [] e' ∧ e'.met = [] ∧
      e.Later e' := by
  induction fuel generalizing e bound ns with
  | zero =>
    -- no node has so high a number
    have hnone : ns = [] := by
      refine List.eq_nil_iff_forall_not_mem.mpr fun n hn => ?_
      have hreach := (hns n hn).1
      have hlow := hreach.1
      have hhigh := hreach.2
      omega
    rw [hnone] at h
    exact ⟨e, bound + 1, rfl, h, hmet, fun _ hn => hn⟩
  | succ fuel ih =>
    obtain ⟨e₁, hrun, hprogress, hlater⟩ := run_forM_visit htame hns h
    obtain ⟨hnext, hqueue⟩ := hprogress.round fun _ => List.mem_reverse
    have hstep : (rounds (fuel + 1) ns).run e =
        (if e₁.met.reverse.isEmpty then pure () else rounds fuel e₁.met.reverse : Evaluating Unit).run
          { e₁ with met := [] } := by
      rw [rounds, run_bind hrun]
      rfl
    rw [hstep]
    split
    · rename_i hempty
      rw [List.isEmpty_iff.mp hempty] at hnext
      exact ⟨_, _, rfl, hnext, rfl, hlater⟩
    · obtain ⟨e', bound', hrun', hprogress', hmet', hlater'⟩ := ih hqueue (by omega) hnext rfl
      exact ⟨e', bound', hrun', hprogress', hmet', hlater.trans hlater'⟩

/-- The value of a node down to a depth, as its nodes have it. -/
def valueFrom (nodes : Array Node) : Nat → Nat → Value
  | 0, _ => .null
  | depth + 1, n =>
    match (nodeAt nodes n).content with
    | .scalar text => (Value.ofScalar (nodeAt nodes n).tag text).toOption.getD .null
    | .sequence ns => .list (ns.map (valueFrom nodes depth))
    | .mapping es => .map (es.map fun e => (valueFrom nodes depth e.1, valueFrom nodes depth e.2))

/-- Where nothing waits, all values are those that the nodes have. -/
theorem valueTo_of_progress (h : Progress nodes bound [] e) (hmet : e.met = []) (depth : Nat)
    (hn : e.Met n) : valueTo e.parts depth n = valueFrom nodes depth n := by
  induction depth generalizing n with
  | zero => rfl
  | succ depth ih =>
    obtain ⟨p, hp⟩ := hn
    have hknown := (h.known n p hp).resolve_left fun hw => by
      rw [hmet] at hw
      exact hw.2.elim List.not_mem_nil List.not_mem_nil
    obtain ⟨hreads, hchildren⟩ := hknown
    rw [valueTo, hp, valueFrom]
    cases hreads with
    | scalar hnode htag hvalue =>
      rw [hnode]
      dsimp only
      rw [hvalue]
      rfl
    | items hnode =>
      rw [hnode]
      exact congrArg Value.list (List.map_congr_left fun m hm => ih (hchildren m hm))
    | entries hnode =>
      rw [hnode]
      refine congrArg Value.map (List.map_congr_left fun x hx => ?_)
      have hpair : ∀ m ∈ [x.1, x.2], valueTo e.parts depth m = valueFrom nodes depth m :=
        fun m hm => ih (hchildren m (List.mem_flatMap.mpr ⟨x, hx, hm⟩))
      simp only [List.forall_mem_cons] at hpair
      rw [hpair.1, hpair.2.1]

end Evaluation

/-- The value of a tame document is that of its root. -/
theorem value_of_tame {doc : Document} (htame : Tame doc.nodes) (hroot : doc.root < doc.nodes.size)
    (depth : Nat) : doc.value depth = .ok (Evaluation.valueFrom doc.nodes depth doc.root) := by
  have hstart : Evaluation.Progress doc.nodes 0 [] (Evaluation.start doc.nodes) := by
    refine ⟨rfl, Array.size_replicate, fun n p hp => ?_, nofun⟩
    change (Array.replicate doc.nodes.size none)[n]? = some (some p) at hp
    rw [Array.getElem?_replicate] at hp
    split at hp <;> cases hp
  obtain ⟨e₁, hrun₁, hprogress₁, -, hmet₁⟩ :=
    Evaluation.run_meet_of_tame htame ⟨Nat.zero_le doc.root, hroot⟩ hstart
  obtain ⟨hfirst, hqueue⟩ := hprogress₁.round fun n => Iff.rfl
  have hfuel : doc.nodes.size ≤ 0 + (doc.nodes.size + 1) := by omega
  obtain ⟨e₂, bound, hrun₂, hprogress₂, hmet₂, hlater⟩ :=
    Evaluation.run_rounds htame hqueue hfuel hfirst rfl
  have hrounds : (do
      let first := (← get).met
      modify fun e => { e with met := [] }
      Evaluation.rounds (doc.nodes.size + 1) first : Evaluating Unit).run e₁ = .ok ((), e₂) := hrun₂
  have hvalue : doc.value depth = ((Evaluation.meet doc.root >>= fun _ => (do
      let first := (← get).met
      modify fun e => { e with met := [] }
      Evaluation.rounds (doc.nodes.size + 1) first : Evaluating Unit)).run (Evaluation.start doc.nodes)) >>=
        fun r => .ok (Evaluation.valueTo r.2.parts depth doc.root) := rfl
  rw [hvalue, run_bind hrun₁, hrounds]
  exact congrArg Except.ok (Evaluation.valueTo_of_progress hprogress₂ hmet₂ depth (hlater _ hmet₁))

end SerialAudit.Document
