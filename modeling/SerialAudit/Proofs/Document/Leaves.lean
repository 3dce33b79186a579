import SerialAudit.Proofs.Document.Values

/-! The value of a document of leaves.

* `Leaf.IsRead` : leaves that have a value;
* `Leaf.value`, `Leaf.valueOf` : the value of a leaf, and that of a mapping of leaves.

A document of leaves is tame, and its value is made of theirs (`value_documentNodes`). -/
namespace SerialAudit.Document
set_option autoImplicit false

namespace Leaf

/-- A leaf has a tag of a scalar, and its text has a value under it. -/
def IsRead (l : Leaf) : Prop :=
  l.node.tag.isScalar = true ∧ ∃ v, Value.ofScalar l.node.tag l.text = .ok v

def value (l : Leaf) : Value := (Value.ofScalar l.node.tag l.text).toOption.getD .null

def valueOf (es : List (Leaf × Leaf)) : Value := .map (es.map fun e => (e.1.value, e.2.value))

variable {nodes : Array Node} {n m depth : Nat} {es : List (Leaf × Leaf)}
  {ms : List (List (Leaf × Leaf))}

/-! ## Numbers -/

theorem length_entryNodes (es : List (Leaf × Leaf)) : (entryNodes es).length = 2 * es.length := by
  induction es with
  | nil => rfl
  | cons e es ih =>
    rw [entryNodes, List.flatMap_cons, List.length_append]
    change 2 + (entryNodes es).length = _
    rw [ih, List.length_cons, Nat.mul_succ, Nat.add_comm]

theorem mem_numbersFrom {x : Nat × Nat} (h : x ∈ numbersFrom n es) :
    ∀ m ∈ [x.1, x.2], n ≤ m ∧ m < n + (entryNodes es).length := by
  rw [length_entryNodes]
  induction es generalizing n with
  | nil => cases h
  | cons e es ih =>
    rw [List.length_cons]
    intro m hm
    obtain rfl | h := List.mem_cons.mp h
    · simp only [List.mem_cons, List.not_mem_nil, or_false] at hm
      omega
    · have hbounds := ih h m hm
      omega

theorem length_numbersFrom (n : Nat) (es : List (Leaf × Leaf)) :
    (numbersFrom n es).length = es.length := by
  induction es generalizing n with
  | nil => rfl
  | cons e es ih => rw [numbersFrom, List.length_cons, List.length_cons, ih]

theorem mem_itemsFrom (h : m ∈ itemsFrom n ms) : n ≤ m ∧ m < n + (itemNodes n ms).length := by
  induction ms generalizing n with
  | nil => cases h
  | cons es ms ih =>
    rw [itemNodes, List.length_append]
    obtain rfl | h := List.mem_cons.mp h
    · rw [mappingNodes, List.length_cons]
      omega
    · have hbounds := ih h
      omega

/-! ## Nodes -/

/-- Nodes stand one after the other from a number on. -/
def StandAt (nodes : Array Node) : Nat → List Node → Prop
  | _, [] => True
  | n, node :: ns => nodeAt nodes n = node ∧ StandAt nodes (n + 1) ns

theorem standAt_append {ns ns' : List Node} : StandAt nodes n (ns ++ ns') ↔
    StandAt nodes n ns ∧ StandAt nodes (n + ns.length) ns' := by
  induction ns generalizing n with
  | nil => exact ⟨fun h => ⟨trivial, h⟩, And.right⟩
  | cons node ns ih =>
    rw [List.cons_append, StandAt, StandAt, ih, and_assoc, List.length_cons, Nat.add_right_comm,
      Nat.add_assoc]

theorem standAt_toArray (before ns : List Node) : StandAt (before ++ ns).toArray before.length ns := by
  induction ns generalizing before with
  | nil => trivial
  | cons node ns ih =>
    refine ⟨?_, ?_⟩
    · rw [nodeAt, List.getElem?_toArray, List.getElem?_append_right (Nat.le_refl _), Nat.sub_self]
      rfl
    · have hrest := ih (before ++ [node])
      rwa [List.append_assoc, List.length_append] at hrest

/-! ## Tameness -/

/-- What `Tame` says of one node. -/
def IsTame (nodes : Array Node) (n : Nat) : Prop :=
  ∃ p, Reads nodes n p ∧ ∀ c ∈ p.children, n < c ∧ c < nodes.size

theorem isTame_leaf {l : Leaf} (hl : l.IsRead) (h : nodeAt nodes n = l.node) : IsTame nodes n := by
  obtain ⟨htag, v, hvalue⟩ := hl
  exact ⟨.scalar v, .scalar h htag hvalue, nofun⟩

theorem exists_leaf_of_entryNodes (h : StandAt nodes n (entryNodes es)) (hlow : n ≤ m)
    (hhigh : m < n + (entryNodes es).length) :
    ∃ e ∈ es, nodeAt nodes m = e.1.node ∨ nodeAt nodes m = e.2.node := by
  induction es generalizing n with
  | nil =>
    change m < n + 0 at hhigh
    omega
  | cons e es ih =>
    obtain ⟨hkey, hvalue, hrest⟩ := h
    by_cases hm : n + 2 ≤ m
    · have hlength : (entryNodes (e :: es)).length = 2 + (entryNodes es).length := by
        rw [length_entryNodes, length_entryNodes, List.length_cons, Nat.mul_succ, Nat.add_comm]
      obtain ⟨e', he', hnode⟩ := ih hrest hm (by omega)
      exact ⟨e', List.mem_cons_of_mem e he', hnode⟩
    · obtain rfl | rfl : m = n ∨ m = n + 1 := by omega
      · exact ⟨e, List.mem_cons_self, .inl hkey⟩
      · exact ⟨e, List.mem_cons_self, .inr hvalue⟩

/-- All leaves of a mapping have values, and there are not too many of them to go through. -/
structure AreRead (es : List (Leaf × Leaf)) : Prop where
  leaves : ∀ e ∈ es, e.1.IsRead ∧ e.2.IsRead
  length : es.length < Evaluation.mergeSteps

theorem isTame_mappingNodes (hes : AreRead es) (h : StandAt nodes n (mappingNodes n es))
    (hsize : n + (mappingNodes n es).length ≤ nodes.size) (hlow : n ≤ m)
    (hhigh : m < n + (mappingNodes n es).length) : IsTame nodes m := by
  obtain ⟨hnode, hentries⟩ := h
  rw [mappingNodes, List.length_cons] at hhigh hsize
  have hleaf : ∀ k, n + 1 ≤ k → k < n + 1 + (entryNodes es).length →
      ∃ l : Leaf, l.IsRead ∧ nodeAt nodes k = l.node := by
    intro k hk hk'
    obtain ⟨e, he, hkey | hvalue⟩ := exists_leaf_of_entryNodes hentries hk hk'
    · exact ⟨e.1, (hes.leaves e he).1, hkey⟩
    · exact ⟨e.2, (hes.leaves e he).2, hvalue⟩
  by_cases hm : m = n
  · subst hm
    refine ⟨.entries (numbersFrom (m + 1) es), .entries hnode ?_ fun x hx => ?_, fun c hc => ?_⟩
    · rw [length_numbersFrom]
      exact hes.length
    · obtain ⟨hx, hx'⟩ := mem_numbersFrom hx x.1 List.mem_cons_self
      obtain ⟨l, hl, hnode⟩ := hleaf x.1 hx hx'
      rw [hnode]
      exact Tag.of_isScalar hl.1
    · obtain ⟨x, hx, hc⟩ := List.mem_flatMap.mp hc
      have hbounds := mem_numbersFrom hx c hc
      omega
  · obtain ⟨l, hl, hnode⟩ := hleaf m (by omega) (by omega)
    exact isTame_leaf hl hnode

theorem isTame_itemNodes (hms : ∀ es ∈ ms, AreRead es) (h : StandAt nodes n (itemNodes n ms))
    (hsize : n + (itemNodes n ms).length ≤ nodes.size) (hlow : n ≤ m)
    (hhigh : m < n + (itemNodes n ms).length) : IsTame nodes m := by
  induction ms generalizing n with
  | nil =>
    change m < n + 0 at hhigh
    omega
  | cons es ms ih =>
    obtain ⟨hfirst, hrest⟩ := standAt_append.mp h
    rw [itemNodes, List.length_append] at hhigh hsize
    by_cases hm : m < n + (mappingNodes n es).length
    · exact isTame_mappingNodes (hms es List.mem_cons_self) hfirst (by omega) hlow hm
    · exact ih (fun gs hgs => hms gs (List.mem_cons_of_mem es hgs)) hrest (by omega) (by omega) (by omega)

theorem tame_documentNodes {key : Leaf} (hkey : key.IsRead) (hms : ∀ es ∈ ms, AreRead es) :
    Tame (documentNodes key ms).toArray := by
  have hall := standAt_toArray [] (documentNodes key ms)
  obtain ⟨hroot, hfirst, hsequence, hitems⟩ := hall
  have hsize : (documentNodes key ms).toArray.size = 3 + (itemNodes 3 ms).length := by
    rw [List.size_toArray, documentNodes, sequenceNodes, List.length_cons, List.length_cons,
      List.length_cons]
    exact Nat.add_comm (itemNodes 3 ms).length 3
  intro n hn
  -- the first three nodes are the mapping, its key and the sequence under it
  by_cases hn3 : 3 ≤ n
  · exact isTame_itemNodes hms hitems (Nat.le_of_eq hsize.symm) hn3 (hsize ▸ hn)
  · obtain rfl | rfl | rfl : n = 0 ∨ n = 1 ∨ n = 2 := by omega
    · have hone : nodeAt (documentNodes key ms).toArray 1 = key.node := hfirst
      refine ⟨.entries [(1, 2)], .entries hroot (by decide) fun x hx => ?_, fun c hc => ?_⟩
      · obtain rfl := List.mem_singleton.mp hx
        rw [hone]
        exact Tag.of_isScalar hkey.1
      · have hc' : c ∈ [1, 2] := hc
        simp only [List.mem_cons, List.not_mem_nil, or_false] at hc'
        omega
    · exact isTame_leaf hkey hfirst
    · refine ⟨.items (itemsFrom 3 ms), .items hsequence, fun c hc => ?_⟩
      have hbounds := mem_itemsFrom hc
      omega

/-! ## Values -/

open Evaluation

theorem valueFrom_leaf {l : Leaf} (h : nodeAt nodes n = l.node) (depth : Nat) :
    valueFrom nodes (depth + 1) n = l.value := by
  rw [valueFrom, h]
  rfl

theorem map_numbersFrom (h : StandAt nodes n (entryNodes es)) (depth : Nat) :
    (numbersFrom n es).map (fun e => (valueFrom nodes (depth + 1) e.1, valueFrom nodes (depth + 1) e.2)) =
      es.map fun e => (e.1.value, e.2.value) := by
  induction es generalizing n with
  | nil => rfl
  | cons e es ih =>
    obtain ⟨hkey, hvalue, hrest⟩ := h
    rw [numbersFrom, List.map_cons, List.map_cons, ih hrest, valueFrom_leaf hkey, valueFrom_leaf hvalue]

theorem valueFrom_mapping (h : StandAt nodes n (mappingNodes n es)) (depth : Nat) :
    valueFrom nodes (depth + 2) n = valueOf es := by
  obtain ⟨hnode, hentries⟩ := h
  rw [valueFrom, hnode]
  exact congrArg Value.map (map_numbersFrom hentries depth)

theorem map_itemsFrom (h : StandAt nodes n (itemNodes n ms)) (depth : Nat) :
    (itemsFrom n ms).map (valueFrom nodes (depth + 2)) = ms.map valueOf := by
  induction ms generalizing n with
  | nil => rfl
  | cons es ms ih =>
    obtain ⟨hfirst, hrest⟩ := standAt_append.mp h
    rw [itemsFrom, List.map_cons, List.map_cons, ih hrest, valueFrom_mapping hfirst]

/-- The value of a document of mappings, which is four levels deep. -/
theorem value_documentNodes {key : Leaf} (hkey : key.IsRead) (hms : ∀ es ∈ ms, AreRead es)
    (depth : Nat) : Document.value ⟨(documentNodes key ms).toArray, 0⟩ (depth + 4) =
      .ok (.map [(key.value, .list (ms.map valueOf))]) := by
  have hall := standAt_toArray [] (documentNodes key ms)
  obtain ⟨hroot, hfirst, hsequence, hitems⟩ := hall
  have hlist : valueFrom (documentNodes key ms).toArray (depth + 3) 2 = .list (ms.map valueOf) := by
    have hnode : nodeAt (documentNodes key ms).toArray 2 = ⟨.sequence, .sequence (itemsFrom 3 ms)⟩ :=
      hsequence
    rw [valueFrom, hnode]
    exact congrArg Value.list (map_itemsFrom hitems depth)
  have hkeyValue : valueFrom (documentNodes key ms).toArray (depth + 3) 1 = key.value :=
    valueFrom_leaf hfirst (depth + 2)
  have hnode : nodeAt (documentNodes key ms).toArray 0 = ⟨.mapping, .mapping [(1, 2)]⟩ := hroot
  have hsize : 0 < (documentNodes key ms).toArray.size := by
    rw [List.size_toArray]
    exact Nat.succ_pos _
  rw [value_of_tame (tame_documentNodes hkey hms) hsize, valueFrom, hnode]
  change Except.ok (Value.map [(valueFrom (documentNodes key ms).toArray (depth + 3) 1,
    valueFrom (documentNodes key ms).toArray (depth + 3) 2)]) = _
  rw [hkeyValue, hlist]

end Leaf
end SerialAudit.Document
