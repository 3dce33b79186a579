import Mathlib.Data.List.Basic
import SerialAudit.Document.Node

/-! The nodes of a sequence of mappings under the key of a mapping, where all else are scalars.

* `run_bind` : a step that does not fail, and what follows it;
* `Leaf` : a scalar, with its token and its node;
* `Leaf.mappingTokens`, `Leaf.mappingNodes` : a mapping of leaves;
* `Leaf.documentTokens`, `Leaf.documentNodes` : a document of such mappings.

The tokens of a document make its nodes (`Leaf.ofTokens?_documentTokens`). -/
namespace SerialAudit.Document
set_option autoImplicit false

theorem run_bind {σ α β : Type} {m : StateT σ (Except Fault) α} {f : α → StateT σ (Except Fault) β}
    {s s' : σ} {a : α} (h : m.run s = .ok (a, s')) : (m >>= f).run s = (f a).run s' := by
  rw [StateT.run_bind, h]
  rfl

structure Leaf where
  plain : Bool
  text : String

namespace Leaf

def token (l : Leaf) : Token := .scalar l.plain l.text

def node (l : Leaf) : Node := ⟨if l.plain then .ofText l.text.toList else .text, .scalar l.text⟩

/-! ## Documents of leaves -/

def entryTokens (es : List (Leaf × Leaf)) : List Token :=
  es.flatMap fun e => [.key, e.1.token, .value, e.2.token]

def mappingTokens (es : List (Leaf × Leaf)) : List Token :=
  .blockMappingStart :: (entryTokens es ++ [.blockEnd])

def itemTokens (ms : List (List (Leaf × Leaf))) : List Token :=
  ms.flatMap fun es => .blockEntry :: mappingTokens es

def documentTokens (key : Leaf) (ms : List (List (Leaf × Leaf))) : List Token :=
  .blockMappingStart :: .key :: key.token :: .value :: (itemTokens ms ++ [.blockEnd, .finish])

/-- The numbers of the keys and values of a mapping whose first key has a number. -/
def numbersFrom : Nat → List (Leaf × Leaf) → List (Nat × Nat)
  | _, [] => []
  | n, _ :: es => (n, n + 1) :: numbersFrom (n + 2) es

def entryNodes (es : List (Leaf × Leaf)) : List Node := es.flatMap fun e => [e.1.node, e.2.node]

/-- The nodes of a mapping that has a number. -/
def mappingNodes (n : Nat) (es : List (Leaf × Leaf)) : List Node :=
  ⟨.mapping, .mapping (numbersFrom (n + 1) es)⟩ :: entryNodes es

/-- The numbers of mappings of which the first one has a number. -/
def itemsFrom : Nat → List (List (Leaf × Leaf)) → List Nat
  | _, [] => []
  | n, es :: ms => n :: itemsFrom (n + (mappingNodes n es).length) ms

def itemNodes : Nat → List (List (Leaf × Leaf)) → List Node
  | _, [] => []
  | n, es :: ms => mappingNodes n es ++ itemNodes (n + (mappingNodes n es).length) ms

/-- The nodes of a sequence that has a number. -/
def sequenceNodes (n : Nat) (ms : List (List (Leaf × Leaf))) : List Node :=
  ⟨.sequence, .sequence (itemsFrom (n + 1) ms)⟩ :: itemNodes (n + 1) ms

def documentNodes (key : Leaf) (ms : List (List (Leaf × Leaf))) : List Node :=
  ⟨.mapping, .mapping [(1, 2)]⟩ :: key.node :: sequenceNodes 2 ms

end Leaf

namespace Builder

open Leaf

/-- The state with some nodes built, none of which has an anchor. -/
def built (ts : List Token) (ns : List Node) : Builder := ⟨ts, ns.toArray, []⟩

variable {handles : List (String × String)} {fuel depth : Nat} {ts : List Token}
  {ns : List Node} {child : Building Nat}

theorem run_place (n : Node) :
    (place none n).run (built ts ns) = .ok (ns.length, built ts (ns ++ [n])) := by
  have hpush : ns.toArray.push n = (ns ++ [n]).toArray := List.push_toArray ns n
  change Except.ok (ns.toArray.size, (⟨ts, ns.toArray.push n, []⟩ : Builder)) = _
  rw [hpush]
  rfl

theorem run_fill (ts : List Token) (ns : List Node) (content : Content) (n : Node) (ms : List Node) :
    (fill ns.length content).run (built ts (ns ++ n :: ms)) =
      .ok ((), built ts (ns ++ { n with content := content } :: ms)) := by
  have hmodify : (ns ++ n :: ms).toArray.modify ns.length (fun n => { n with content := content }) =
      (ns ++ { n with content := content } :: ms).toArray := by
    rw [List.modify_toArray, List.modify_eq_take_cons_drop (by simp)]
    simp
  change Except.ok ((), (⟨ts, (ns ++ n :: ms).toArray.modify ns.length _, []⟩ : Builder)) = _
  rw [hmodify]
  rfl

/-! ## Leaves -/

/-- What a reader of nodes does with leaves. -/
def ReadsLeaves (child : Building Nat) : Prop := ∀ (l : Leaf) (ts : List Token) (ns : List Node),
  child.run (built (l.token :: ts) ns) = .ok (ns.length, built ts (ns ++ [l.node]))

theorem readsLeaves_read (handles : List (String × String)) (fuel depth : Nat) (context : Context) :
    ReadsLeaves (read handles fuel (depth + 1) context) := by
  intro l ts ns
  have hplace : (read handles fuel (depth + 1) context).run (built (l.token :: ts) ns) =
      (place none l.node).run (built ts ns) := by
    obtain ⟨plain, text⟩ := l
    cases context <;> cases plain <;> rfl
  rw [hplace, run_place]

/-- An entry with a leaf as its key. -/
theorem run_entry (h : ReadsLeaves child) (k : Leaf) {rest : List Token} {n : Nat} {ms : List Node}
    (hvalue : (valueOrEmpty [.key, .value, .blockEnd] child).run
      (built (.value :: rest) (ns ++ [k.node])) = .ok (n, built ts ms)) :
    (entry [.key, .value, .blockEnd] [.key, .value, .blockEnd] child).run
        (built (.key :: k.token :: .value :: rest) ns) = .ok ((ns.length, n), built ts ms) := by
  have hkey : (orEmpty [.key, .value, .blockEnd] child).run (built (k.token :: .value :: rest) ns) =
      .ok (ns.length, built (.value :: rest) (ns ++ [k.node])) := h k _ ns
  have hall : (entry [.key, .value, .blockEnd] [.key, .value, .blockEnd] child).run
      (built (.key :: k.token :: .value :: rest) ns) =
        ((orEmpty [.key, .value, .blockEnd] child) >>= fun k => do
          let v ← valueOrEmpty [.key, .value, .blockEnd] child
          pure (k, v)).run (built (k.token :: .value :: rest) ns) := rfl
  rw [hall, run_bind hkey, run_bind hvalue]
  rfl

theorem run_entry_leaf (h : ReadsLeaves child) (k v : Leaf) :
    (entry [.key, .value, .blockEnd] [.key, .value, .blockEnd] child).run
        (built (.key :: k.token :: .value :: v.token :: ts) ns) =
      .ok ((ns.length, ns.length + 1), built ts (ns ++ [k.node, v.node])) := by
  have hvalue : (valueOrEmpty [.key, .value, .blockEnd] child).run
      (built (.value :: v.token :: ts) (ns ++ [k.node])) = .ok _ := h v ts (ns ++ [k.node])
  have hentry := run_entry h k hvalue
  rwa [List.append_assoc, List.length_append] at hentry

/-- The first entry of a mapping, and the entries after it. -/
theorem run_blockEntries_key (child : Building Nat) (fuel : Nat) (ts : List Token) (ns : List Node) :
    (blockEntries child (fuel + 1)).run (built (.key :: ts) ns) =
      (entry [.key, .value, .blockEnd] [.key, .value, .blockEnd] child >>= fun e => do
        pure (e :: (← blockEntries child fuel))).run (built (.key :: ts) ns) := rfl

theorem run_blockEntries (h : ReadsLeaves child) (ts : List Token) (ns : List Node)
    (es : List (Leaf × Leaf)) (hfuel : es.length < fuel) :
    (blockEntries child fuel).run (built (entryTokens es ++ .blockEnd :: ts) ns) =
      .ok (numbersFrom ns.length es, built ts (ns ++ entryNodes es)) := by
  induction es generalizing fuel ns with
  | nil =>
    obtain ⟨fuel, rfl⟩ : ∃ n, fuel = n + 1 := ⟨fuel - 1, by omega⟩
    have hnone : ns ++ entryNodes [] = ns := List.append_nil ns
    rw [hnone]
    rfl
  | cons e es ih =>
    obtain ⟨fuel, rfl⟩ : ∃ n, fuel = n + 1 := ⟨fuel - 1, by omega⟩
    rw [List.length_cons] at hfuel
    have htokens : entryTokens (e :: es) ++ .blockEnd :: ts =
        .key :: e.1.token :: .value :: e.2.token :: (entryTokens es ++ .blockEnd :: ts) := rfl
    rw [htokens, run_blockEntries_key, run_bind (run_entry_leaf h e.1 e.2), run_bind (ih _ (by omega))]
    have hlength : (ns ++ [e.1.node, e.2.node]).length = ns.length + 2 := List.length_append
    rw [hlength, List.append_assoc]
    rfl

/-! ## Collections -/

/-- A collection stands before what it consists of, and has its content afterwards. -/
theorem run_mapping {entries : Building (List (Nat × Nat))} {es : List (Nat × Nat)} {ms : List Node}
    {rest : List Token}
    (h : entries.run (built ts (ns ++ [⟨.mapping, .mapping []⟩])) =
      .ok (es, built rest (ns ++ [⟨.mapping, .mapping []⟩] ++ ms))) :
    (mapping ⟨none, none⟩ entries).run (built ts ns) =
      .ok (ns.length, built rest (ns ++ ⟨.mapping, .mapping es⟩ :: ms)) := by
  have hfill := run_fill rest ns (.mapping es) ⟨.mapping, .mapping []⟩ ms
  rw [List.append_assoc, List.singleton_append] at h
  have htag : Properties.tagOr ⟨none, none⟩ .mapping = .mapping := rfl
  rw [mapping, htag, run_bind (run_place _), run_bind h, run_bind hfill]
  rfl

theorem run_sequence {items : Building (List Nat)} {is : List Nat} {ms : List Node} {rest : List Token}
    (h : items.run (built ts (ns ++ [⟨.sequence, .sequence []⟩])) =
      .ok (is, built rest (ns ++ [⟨.sequence, .sequence []⟩] ++ ms))) :
    (sequence ⟨none, none⟩ items).run (built ts ns) =
      .ok (ns.length, built rest (ns ++ ⟨.sequence, .sequence is⟩ :: ms)) := by
  have hfill := run_fill rest ns (.sequence is) ⟨.sequence, .sequence []⟩ ms
  rw [List.append_assoc, List.singleton_append] at h
  have htag : Properties.tagOr ⟨none, none⟩ .sequence = .sequence := rfl
  rw [sequence, htag, run_bind (run_place _), run_bind h, run_bind hfill]
  rfl

theorem run_read_mapping (handles : List (String × String)) (depth : Nat) (ts : List Token)
    (ns : List Node) (es : List (Leaf × Leaf)) (hfuel : es.length < fuel) :
    (read handles fuel (depth + 2) .block).run (built (mappingTokens es ++ ts) ns) =
      .ok (ns.length, built ts (ns ++ mappingNodes ns.length es)) := by
  have hstart : (read handles fuel (depth + 2) .block).run (built (mappingTokens es ++ ts) ns) =
      (mapping ⟨none, none⟩ do
        advance
        blockEntries (read handles fuel (depth + 1) .entry) fuel).run (built (mappingTokens es ++ ts) ns) :=
    rfl
  have hentries := run_blockEntries (readsLeaves_read handles fuel depth .entry) ts
    (ns ++ [⟨.mapping, .mapping []⟩]) es hfuel
  rw [List.length_append] at hentries
  rw [hstart]
  refine run_mapping ?_
  rw [mappingTokens, List.cons_append, List.append_assoc]
  exact hentries

theorem run_looseItems (handles : List (String × String)) (depth : Nat) (ts : List Token)
    (ns : List Node) {ms : List (List (Leaf × Leaf))} (hms : ∀ es ∈ ms, es.length < fuel)
    {count : Nat} (hcount : ms.length < count) :
    (looseItems (read handles fuel (depth + 2) .block) count).run
        (built (itemTokens ms ++ .blockEnd :: ts) ns) =
      .ok (itemsFrom ns.length ms, built (.blockEnd :: ts) (ns ++ itemNodes ns.length ms)) := by
  induction ms generalizing count ns with
  | nil =>
    obtain ⟨count, rfl⟩ : ∃ n, count = n + 1 := ⟨count - 1, by omega⟩
    have hnone : ns ++ itemNodes ns.length [] = ns := List.append_nil ns
    rw [hnone]
    rfl
  | cons es ms ih =>
    obtain ⟨count, rfl⟩ : ∃ n, count = n + 1 := ⟨count - 1, by omega⟩
    rw [List.length_cons] at hcount
    have htokens : itemTokens (es :: ms) ++ .blockEnd :: ts =
        .blockEntry :: (mappingTokens es ++ (itemTokens ms ++ .blockEnd :: ts)) := by
      rw [itemTokens, List.flatMap_cons, List.append_assoc, List.cons_append]
      rfl
    have hstep : (looseItems (read handles fuel (depth + 2) .block) (count + 1)).run
        (built (.blockEntry :: (mappingTokens es ++ (itemTokens ms ++ .blockEnd :: ts))) ns) =
        (read handles fuel (depth + 2) .block >>= fun n => do
          pure (n :: (← looseItems (read handles fuel (depth + 2) .block) count))).run
            (built (mappingTokens es ++ (itemTokens ms ++ .blockEnd :: ts)) ns) := rfl
    have hitem := run_read_mapping handles depth (itemTokens ms ++ .blockEnd :: ts) ns es
      (hms es List.mem_cons_self)
    rw [htokens, hstep, run_bind hitem,
      run_bind (ih _ (fun gs hgs => hms gs (List.mem_cons_of_mem es hgs)) (by omega))]
    rw [List.length_append, List.append_assoc]
    rfl

theorem run_read_sequence (handles : List (String × String)) (depth : Nat) (ts : List Token)
    (ns : List Node) {ms : List (List (Leaf × Leaf))} (hne : ms ≠ [])
    (hms : ∀ es ∈ ms, es.length < fuel) (hfuel : ms.length < fuel) :
    (read handles fuel (depth + 3) .entry).run (built (itemTokens ms ++ .blockEnd :: ts) ns) =
      .ok (ns.length, built (.blockEnd :: ts) (ns ++ sequenceNodes ns.length ms)) := by
  obtain ⟨es, ms, rfl⟩ := List.exists_cons_of_ne_nil hne
  have hstart : (read handles fuel (depth + 3) .entry).run
      (built (itemTokens (es :: ms) ++ .blockEnd :: ts) ns) =
      (sequence ⟨none, none⟩ (looseItems (read handles fuel (depth + 2) .block) fuel)).run
        (built (itemTokens (es :: ms) ++ .blockEnd :: ts) ns) := rfl
  have hitems := run_looseItems handles depth ts (ns ++ [⟨.sequence, .sequence []⟩]) hms hfuel
  rw [List.length_append] at hitems
  rw [hstart]
  exact run_sequence hitems

/-- The only entry of a document of mappings. -/
theorem run_rootEntry (handles : List (String × String)) (depth : Nat) (ts : List Token)
    (ns : List Node) (key : Leaf) {ms : List (List (Leaf × Leaf))} (hne : ms ≠ [])
    (hms : ∀ es ∈ ms, es.length < fuel) (hfuel : ms.length < fuel) :
    (entry [.key, .value, .blockEnd] [.key, .value, .blockEnd] (read handles fuel (depth + 3) .entry)).run
        (built (.key :: key.token :: .value :: (itemTokens ms ++ .blockEnd :: ts)) ns) =
      .ok ((ns.length, ns.length + 1),
        built (.blockEnd :: ts) (ns ++ key.node :: sequenceNodes (ns.length + 1) ms)) := by
  have hvalue := run_read_sequence handles depth ts (ns ++ [key.node]) hne hms hfuel
  have hnext : (valueOrEmpty [.key, .value, .blockEnd] (read handles fuel (depth + 3) .entry)).run
      (built (.value :: (itemTokens ms ++ .blockEnd :: ts)) (ns ++ [key.node])) =
      (read handles fuel (depth + 3) .entry).run
        (built (itemTokens ms ++ .blockEnd :: ts) (ns ++ [key.node])) := by
    obtain ⟨es, ms, rfl⟩ := List.exists_cons_of_ne_nil hne
    rfl
  have hentry := run_entry (readsLeaves_read handles fuel (depth + 2) .entry) key (hnext.trans hvalue)
  rwa [List.append_assoc, List.length_append] at hentry

theorem run_root (fuel : Nat) (key : Leaf) {ms : List (List (Leaf × Leaf))} (hne : ms ≠ [])
    (hms : ∀ es ∈ ms, es.length < fuel + 1) (hfuel : ms.length < fuel + 1) :
    (root (fuel + 1)).run (built (documentTokens key ms) []) =
      .ok (0, built [.finish] (documentNodes key ms)) := by
  have hstart : (root (fuel + 1)).run (built (documentTokens key ms) []) =
      (mapping ⟨none, none⟩ do
        advance
        blockEntries (read usualHandles (fuel + 1) (deepest - 4 + 3) .entry) (fuel + 1)).run
          (built (documentTokens key ms) []) := rfl
  -- the document is four levels deep
  have hentry := run_rootEntry usualHandles (deepest - 4) [.finish] [⟨.mapping, .mapping []⟩] key hne hms
    hfuel
  have hstep := run_blockEntries_key (read usualHandles (fuel + 1) (deepest - 4 + 3) .entry) fuel
    (key.token :: .value :: (itemTokens ms ++ [.blockEnd, .finish])) [⟨.mapping, .mapping []⟩]
  obtain ⟨fuel, rfl⟩ : ∃ n, fuel = n + 1 := by
    have hpos := List.length_pos_iff.mpr hne
    exact ⟨fuel - 1, by omega⟩
  rw [run_bind hentry] at hstep
  have hentries : (do
      advance
      blockEntries (read usualHandles (fuel + 2) (deepest - 4 + 3) .entry) (fuel + 2)).run
        (built (documentTokens key ms) ([] ++ [(⟨.mapping, .mapping []⟩ : Node)])) =
      .ok ([(1, 2)],
        built [.finish] ([] ++ [(⟨.mapping, .mapping []⟩ : Node)] ++ key.node :: sequenceNodes 2 ms)) :=
    hstep
  rw [hstart]
  exact run_mapping hentries

theorem length_itemTokens (ms : List (List (Leaf × Leaf))) :
    ms.length ≤ (itemTokens ms).length ∧ ∀ es ∈ ms, es.length ≤ (itemTokens ms).length := by
  have hentries : ∀ es, es.length ≤ (entryTokens es).length := by
    intro es
    induction es with
    | nil => exact Nat.le_refl 0
    | cons e es ih =>
      rw [entryTokens, List.flatMap_cons, List.length_append]
      change es.length + 1 ≤ 4 + (entryTokens es).length
      omega
  induction ms with
  | nil => exact ⟨Nat.le_refl 0, nofun⟩
  | cons es ms ih =>
    have hlength : (itemTokens (es :: ms)).length =
        (entryTokens es).length + 3 + (itemTokens ms).length := by
      rw [itemTokens, List.flatMap_cons, List.length_append, List.length_cons, mappingTokens,
        List.length_cons, List.length_append]
      rfl
    have hes := hentries es
    refine ⟨?_, fun gs hgs => ?_⟩
    · rw [hlength, List.length_cons]
      omega
    · rw [hlength]
      obtain rfl | hgs := List.mem_cons.mp hgs
      · omega
      · have hmore := ih.2 gs hgs
        omega

end Builder

open Builder in
theorem Leaf.ofTokens?_documentTokens (key : Leaf) {ms : List (List (Leaf × Leaf))} (hne : ms ≠ []) :
    Document.ofTokens? (documentTokens key ms) = .ok (some ⟨(documentNodes key ms).toArray, 0⟩) := by
  obtain ⟨hcount, hlengths⟩ := length_itemTokens ms
  have hlength : (documentTokens key ms).length = (itemTokens ms).length + 6 := by
    rw [documentTokens, List.length_cons, List.length_cons, List.length_cons, List.length_cons,
      List.length_append]
    rfl
  have hroot := run_root (documentTokens key ms).length key hne
    (fun es hes => by have hes' := hlengths es hes; omega) (by omega)
  have hbuild : Document.ofTokens? (documentTokens key ms) =
      ((Builder.root ((documentTokens key ms).length + 1) >>= fun n =>
        Builder.close ((documentTokens key ms).length + 1) >>= fun _ => pure n).run
          (built (documentTokens key ms) [])) >>= fun r => .ok (some ⟨r.2.nodes, r.1⟩) := rfl
  rw [hbuild, run_bind hroot]
  rfl

end SerialAudit.Document
