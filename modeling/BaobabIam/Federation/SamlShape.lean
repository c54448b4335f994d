import BaobabIam.Base.Checks
import BaobabIam.Federation.BrokerEvidence
import Mathlib.Data.List.Nodup

/-! The streaming check of a SAML response decides a shape of the document. The loop sees
tokens with a depth and counters; here the document is a list of trees, and what is
accepted is said about the trees. -/
namespace Federation.SamlShape

open Checks

section Trees

structure XmlElement where
  space : Text
  name : Text
  attributes : List (Text × Text)

/-- A node of a well-formed document: texts, directives, comments and instructions, and
elements with what stands between their two tags. -/
inductive XmlNode where
  | text (blank : Bool)
  | directive
  | other
  | element (e : XmlElement) (children : List XmlNode)

mutual
def XmlNode.tokens : XmlNode → List XmlToken
  | .text blank => [.charData blank]
  | .directive => [.directive]
  | .other => [.other]
  | .element e children => .start e.space e.name e.attributes :: (tokensOf children ++ [.finish])
def tokensOf : List XmlNode → List XmlToken
  | [] => []
  | n :: ns => n.tokens ++ tokensOf ns
end

mutual
def XmlNode.elements : Int → XmlNode → List (Int × XmlElement)
  | depth, .element e children => (depth, e) :: elementsOf (depth + 1) children
  | _, _ => []
def elementsOf : Int → List XmlNode → List (Int × XmlElement)
  | _, [] => []
  | depth, n :: ns => n.elements depth ++ elementsOf depth ns
end

namespace XmlElement

def isResponse (e : XmlElement) : Bool := e.space == samlProtocol && e.name == "Response".toList
def isAssertion (e : XmlElement) : Bool := e.space == samlAssertion && e.name == "Assertion".toList
def isSignature (e : XmlElement) : Bool := e.space == xmlSignature && e.name == "Signature".toList

def ids (e : XmlElement) : List Text := (e.attributes.filter (fun a => a.1 == "ID".toList)).map Prod.snd

def AllowedAttributes (e : XmlElement) : Prop :=
  ∀ a ∈ e.attributes,
    (e.name = "SignatureMethod".toList → a.1 = "Algorithm".toList → a.2 ∈ signatureMethods) ∧
    (e.name = "DigestMethod".toList → a.1 = "Algorithm".toList →
      a.2 = "http://www.w3.org/2001/04/xmlenc#sha256".toList) ∧
    (e.name = "Reference".toList → a.1 = "URI".toList → 2 ≤ a.2.size ∧ a.2.head? = some '#')

end XmlElement

def XmlNode.isElement : XmlNode → Bool
  | .element _ _ => true
  | _ => false

/-- The intended shape of a document. The root has depth one, its children depth two. -/
structure Shape (nodes : List XmlNode) : Prop where
  short : (tokensOf nodes).length ≤ 12000
  undirected : XmlToken.directive ∉ tokensOf nodes
  blank : XmlNode.text false ∉ nodes
  root : ∃ e children, nodes.filter XmlNode.isElement = [.element e children] ∧ e.isResponse = true
  shallow : ∀ p ∈ elementsOf 1 nodes, p.1 ≤ 32
  unencrypted : ∀ p ∈ elementsOf 1 nodes, p.2.name ≠ "EncryptedAssertion".toList
  assertion : ((elementsOf 1 nodes).filter (fun p => p.2.isAssertion)).map Prod.fst = [2]
  signatures : let found := (elementsOf 1 nodes).filter (fun p => p.2.isSignature)
    (found.length = 1 ∨ found.length = 2) ∧ ∀ p ∈ found, p.1 = 2 ∨ p.1 = 3
  identified : let ids := (elementsOf 1 nodes).flatMap (fun p => p.2.ids)
    (∀ id ∈ ids, id ≠ []) ∧ ids.Nodup
  allowed : ∀ p ∈ elementsOf 1 nodes, p.2.space = xmlSignature → p.2.AllowedAttributes

end Trees

section Steps

/-- What the loop checks of one element at its depth, identifiers apart. -/
structure ElementOk (depth : Int) (e : XmlElement) : Prop where
  shallow : depth ≤ 32
  root : depth = 1 → e.isResponse = true
  assertion : e.isAssertion = true → depth = 2
  unencrypted : e.name ≠ "EncryptedAssertion".toList
  signature : e.isSignature = true → depth = 2 ∨ depth = 3
  allowed : e.space = xmlSignature → e.AllowedAttributes

theorem uniqueIDs_ok {seen ids : List Text} {attributes : List (Text × Text)} (distinct : seen.Nodup) :
    uniqueIDs seen attributes = .ok ids ↔
      let values := (attributes.filter (fun a => a.1 == "ID".toList)).map Prod.snd
      (∀ v ∈ values, v ≠ []) ∧ (values.reverse ++ seen).Nodup ∧ ids = values.reverse ++ seen := by
  induction attributes generalizing seen with
  | nil => simp [uniqueIDs, distinct, eq_comm]
  | cons a attributes ih =>
    obtain ⟨name, value⟩ := a
    rw [uniqueIDs]
    by_cases identifier : (name == "ID".toList) = true
    · rw [if_pos identifier, List.filter_cons, if_pos identifier]
      simp only [List.map_cons, List.forall_mem_cons, List.reverse_cons, List.append_assoc, List.singleton_append]
      by_cases refused : (value.isEmpty || seen.contains value) = true
      · rw [if_pos refused]
        refine ⟨nofun, ?_⟩
        rintro ⟨⟨present, -⟩, fresh, -⟩
        have new := (List.nodup_cons.mp (List.nodup_append.mp fresh).2.1).1
        rcases Bool.or_eq_true_iff.mp refused with empty | used
        · exact absurd (List.isEmpty_iff.mp empty) present
        · exact absurd (List.contains_iff_mem.mp used) new
      · rw [if_neg refused]
        have present : value ≠ [] ∧ value ∉ seen := by simpa using refused
        rw [ih (List.nodup_cons.mpr ⟨present.2, distinct⟩)]
        simp only [present.1, ne_eq, not_false_eq_true, true_and]
    · rw [if_neg identifier, List.filter_cons, if_neg identifier]
      exact ih distinct

theorem signatureAttributes_ok {e : XmlElement} :
    signatureAttributes e.name e.attributes = .ok () ↔ e.AllowedAttributes := by
  obtain ⟨space, name, attributes⟩ := e
  unfold XmlElement.AllowedAttributes
  induction attributes with
  | nil => simp [signatureAttributes]
  | cons a attributes ih =>
    obtain ⟨key, value⟩ := a
    simp only [List.forall_mem_cons, ← ih, signatureAttributes]
    split
    · rename_i refused
      simp only [Bool.and_eq_true, beq_iff_eq, Bool.not_eq_true',
        List.contains_eq_mem, decide_eq_false_iff_not] at refused
      exact ⟨nofun, fun both => absurd (both.1.1 refused.1.1 refused.1.2) refused.2⟩
    · rename_i signature
      split
      · rename_i refused
        simp only [Bool.and_eq_true, beq_iff_eq, bne_iff_ne] at refused
        exact ⟨nofun, fun both => absurd (both.1.2.1 refused.1.1 refused.1.2) refused.2⟩
      · rename_i digest
        split
        · rename_i refused
          simp only [Bool.and_eq_true, Bool.or_eq_true, beq_iff_eq, bne_iff_ne, decide_eq_true_eq] at refused
          refine ⟨nofun, fun both => ?_⟩
          obtain ⟨long, fragment⟩ := both.1.2.2 refused.1.1 refused.1.2
          rcases refused.2 with short | other
          · omega
          · exact absurd fragment other
        · rename_i reference
          refine ⟨fun rest => ⟨⟨?_, ?_, ?_⟩, rest⟩, fun both => both.2⟩
          · simp only [Bool.and_eq_true, beq_iff_eq, Bool.not_eq_true', List.contains_eq_mem,
              decide_eq_false_iff_not, not_and, not_not] at signature
            exact fun h₁ h₂ => signature ⟨h₁, h₂⟩
          · simp only [Bool.and_eq_true, beq_iff_eq, bne_iff_ne, not_and, not_not] at digest
            exact fun h₁ h₂ => digest ⟨h₁, h₂⟩
          · simp only [Bool.and_eq_true, Bool.or_eq_true, beq_iff_eq, bne_iff_ne, decide_eq_true_eq, not_and, not_or,
              not_not, Nat.not_lt] at reference
            exact fun h₁ h₂ => reference ⟨h₁, h₂⟩

def opened (st : XmlState) (e : XmlElement) : XmlState where
  depth := st.depth + 1
  count := st.count
  assertions := if e.isAssertion then st.assertions + 1 else st.assertions
  signatures := if e.isSignature then st.signatures + 1 else st.signatures
  roots := if st.depth + 1 == 1 then st.roots + 1 else st.roots
  ids := e.ids.reverse ++ st.ids

theorem startElement_ok {st st' : XmlState} {e : XmlElement} (distinct : st.ids.Nodup) :
    startElement st e.space e.name e.attributes = .ok st' ↔
      ElementOk (st.depth + 1) e ∧ (∀ v ∈ e.ids, v ≠ []) ∧ (e.ids.reverse ++ st.ids).Nodup ∧
        st' = opened st e := by
  unfold startElement
  simp only [throw_if_ok, bind_ok, uniqueIDs_ok distinct]
  simp only [check_if_ok, pure_ok, signatureAttributes_ok]
  constructor
  · rintro ⟨shallow, root, assertion, unencrypted, ids, ⟨nonempty, fresh, rfl⟩, signature, allowed, rfl⟩
    refine ⟨⟨by omega, ?_, ?_, by simpa using unencrypted, ?_, by simpa using allowed⟩, nonempty, fresh, rfl⟩
    · grind [XmlElement.isResponse]
    · grind [XmlElement.isAssertion]
    · grind [XmlElement.isSignature]
  · rintro ⟨ok, nonempty, fresh, rfl⟩
    refine ⟨by have := ok.shallow; omega, ?_, ?_, by simpa using ok.unencrypted, _, ⟨nonempty, fresh, rfl⟩, ?_,
      by simpa using ok.allowed, rfl⟩
    · have := ok.root
      grind [XmlElement.isResponse]
    · have := ok.assertion
      grind [XmlElement.isAssertion]
    · have := ok.signature
      grind [XmlElement.isSignature]

end Steps

section Runs

def shift (depth : Int) : XmlToken → Int
  | .start _ _ _ => depth + 1
  | .finish => depth - 1
  | _ => depth

/-- What `f` finds at each token of a stream, given the depth in front of it. -/
def gather {α : Type} (f : Int → XmlToken → List α) : Int → List XmlToken → List α
  | _, [] => []
  | depth, t :: ts => f depth t ++ gather f (shift depth t) ts

def startAt (depth : Int) : XmlToken → List (Int × XmlElement)
  | .start space name attributes => [(depth + 1, ⟨space, name, attributes⟩)]
  | _ => []

def textAt (depth : Int) : XmlToken → List Bool
  | .charData blank => if depth = 0 then [blank] else []
  | _ => []

def identifiers (found : List (Int × XmlElement)) : List Text := found.flatMap (fun p => p.2.ids)

def advance (st : XmlState) (tokens : List XmlToken) : XmlState :=
  let found := gather startAt st.depth tokens
  { depth := tokens.foldl shift st.depth
    count := st.count + tokens.length
    assertions := st.assertions + found.countP (fun p => p.2.isAssertion)
    signatures := st.signatures + found.countP (fun p => p.2.isSignature)
    roots := st.roots + found.countP (fun p => p.1 == 1)
    ids := (identifiers found).reverse ++ st.ids }

structure Passes (st : XmlState) (tokens : List XmlToken) : Prop where
  short : st.count + tokens.length ≤ 12000
  undirected : XmlToken.directive ∉ tokens
  blank : ∀ b ∈ gather textAt st.depth tokens, b = true
  elements : ∀ p ∈ gather startAt st.depth tokens, ElementOk p.1 p.2
  identified : ∀ v ∈ identifiers (gather startAt st.depth tokens), v ≠ []
  distinct : (advance st tokens).ids.Nodup

theorem advance_nil (st : XmlState) : advance st [] = st := rfl

theorem advance_cons (st : XmlState) (t : XmlToken) (ts : List XmlToken) :
    advance st (t :: ts) = advance (advance st [t]) ts := by
  simp [advance, gather, identifiers, Nat.add_assoc, Nat.add_comm 1]

theorem passes_cons (st : XmlState) (t : XmlToken) (ts : List XmlToken) :
    Passes st (t :: ts) ↔ Passes st [t] ∧ Passes (advance st [t]) ts := by
  have found : ∀ {α : Type} (f : Int → XmlToken → List α), gather f st.depth (t :: ts) =
      gather f st.depth [t] ++ gather f (advance st [t]).depth ts := by
    intro α f
    simp [gather, advance]
  have ids : (advance st (t :: ts)).ids =
      (identifiers (gather startAt (advance st [t]).depth ts)).reverse ++ (advance st [t]).ids := by
    rw [advance_cons]
    rfl
  constructor
  · intro h
    have short := h.short
    have undirected := h.undirected
    rw [List.mem_cons, not_or] at undirected
    have blank := h.blank
    have elements := h.elements
    have identified := h.identified
    have distinct := h.distinct
    rw [found, List.forall_mem_append] at blank elements
    rw [found, identifiers, List.flatMap_append, List.forall_mem_append] at identified
    rw [ids] at distinct
    simp only [List.length_cons] at short
    refine ⟨⟨?_, ?_, blank.1, elements.1, identified.1, (List.nodup_append.mp distinct).2.1⟩,
      ⟨?_, undirected.2, blank.2, elements.2, identified.2, distinct⟩⟩
    · simp only [List.length_singleton]
      omega
    · simpa using undirected.1
    · simp only [advance, List.length_singleton]
      omega
  · rintro ⟨first, rest⟩
    have short := rest.short
    refine ⟨?_, ?_, ?_, ?_, ?_, ?_⟩
    · simp only [advance, List.length_singleton] at short
      simp only [List.length_cons]
      omega
    · rw [List.mem_cons, not_or]
      exact ⟨by simpa using first.undirected, rest.undirected⟩
    · rw [found, List.forall_mem_append]
      exact ⟨first.blank, rest.blank⟩
    · rw [found, List.forall_mem_append]
      exact ⟨first.elements, rest.elements⟩
    · rw [found, identifiers, List.flatMap_append, List.forall_mem_append]
      exact ⟨first.identified, rest.identified⟩
    · rw [ids]
      exact rest.distinct

variable {st st' : XmlState} {t : XmlToken}

theorem passes_singleton : Passes st [t] ↔
    st.count + 1 ≤ 12000 ∧ t ≠ .directive ∧ (∀ b ∈ textAt st.depth t, b = true) ∧
      (∀ p ∈ startAt st.depth t, ElementOk p.1 p.2) ∧ (∀ v ∈ identifiers (startAt st.depth t), v ≠ []) ∧
      ((identifiers (startAt st.depth t)).reverse ++ st.ids).Nodup := by
  have one : ∀ {α : Type} (f : Int → XmlToken → List α), gather f st.depth [t] = f st.depth t := by
    intro α f
    simp [gather]
  constructor
  · rintro ⟨short, undirected, blank, elements, identified, distinct⟩
    simp only [advance] at distinct
    rw [one] at blank elements identified distinct
    exact ⟨short, fun same => undirected (by rw [same]; exact List.mem_singleton_self _), blank, elements, identified,
      distinct⟩
  · rintro ⟨short, undirected, blank, elements, identified, distinct⟩
    refine ⟨short, fun h => undirected (List.mem_singleton.mp h).symm, ?_, ?_, ?_, ?_⟩
    · rw [one]; exact blank
    · rw [one]; exact elements
    · rw [one]; exact identified
    · simp only [advance]
      rw [one]
      exact distinct

theorem xmlStep_ok (distinct : st.ids.Nodup) :
    xmlStep st t = .ok st' ↔ Passes st [t] ∧ st' = advance st [t] := by
  rw [passes_singleton]
  unfold xmlStep
  cases t with
  | charData blank =>
    simp only [throw_if_ok, Nat.not_lt]
    by_cases stray : (st.depth == 0 && !blank) = true
    · have refused : ¬ ∀ b ∈ textAt st.depth (.charData blank), b = true := by
        simp only [Bool.and_eq_true, beq_iff_eq, Bool.not_eq_true'] at stray
        simp [textAt, stray]
      rw [if_pos stray]
      exact ⟨fun h => (nomatch h.2), fun h => absurd h.1.2.2.1 refused⟩
    · have blankText : ∀ b ∈ textAt st.depth (.charData blank), b = true := by
        intro b hb
        simp only [textAt] at hb
        split at hb
        · rename_i ground
          simpa [List.mem_singleton.mp hb, ground] using stray
        · cases hb
      rw [if_neg stray, pure_ok, and_iff_right blankText]
      simp [startAt, identifiers, advance, gather, shift, distinct, eq_comm]
  | directive =>
    simp only [throw_if_ok]
    exact ⟨fun h => (nomatch h.2), fun h => absurd rfl h.1.2.1⟩
  | start space name attributes =>
    let e : XmlElement := ⟨space, name, attributes⟩
    have found : startAt st.depth (.start space name attributes) = [(st.depth + 1, e)] := rfl
    have ids : identifiers [(st.depth + 1, e)] = e.ids := by simp [identifiers]
    have same : advance st [.start space name attributes] = opened { st with count := st.count + 1 } e := by
      simp only [advance, opened, gather, found, List.append_nil, ids, List.countP_singleton, List.foldl_cons,
        List.foldl_nil, shift, List.length_singleton]
      congr 1 <;> split <;> rfl
    have step := @startElement_ok { st with count := st.count + 1 } st' e distinct
    simp only [throw_if_ok, Nat.not_lt]
    rw [found, ids, same, List.forall_mem_singleton]
    constructor
    · rintro ⟨room, started⟩
      obtain ⟨ok, nonempty, fresh, same⟩ := step.mp started
      exact ⟨⟨room, nofun, nofun, ok, nonempty, fresh⟩, same⟩
    · rintro ⟨⟨room, -, -, ok, nonempty, fresh⟩, same⟩
      exact ⟨room, step.mpr ⟨ok, nonempty, fresh, same⟩⟩
  | finish | other =>
    simp only [throw_if_ok, pure_ok, Nat.not_lt]
    simp [textAt, startAt, identifiers, advance, gather, shift, distinct, eq_comm]

theorem fold_ok {tokens : List XmlToken} (room : st.count ≤ 12000) (distinct : st.ids.Nodup) :
    tokens.foldlM xmlStep st = .ok st' ↔ Passes st tokens ∧ st' = advance st tokens := by
  induction tokens generalizing st with
  | nil =>
    rw [List.foldlM_nil, pure_ok, advance_nil, eq_comm]
    refine ⟨fun same => ⟨⟨room, nofun, nofun, nofun, nofun, distinct⟩, same⟩, fun h => h.2⟩
  | cons t ts ih =>
    rw [List.foldlM_cons, bind_ok, passes_cons, advance_cons st t ts]
    constructor
    · rintro ⟨next, first, rest⟩
      obtain ⟨passed, rfl⟩ := (xmlStep_ok distinct).mp first
      obtain ⟨others, same⟩ := (ih passed.short passed.distinct).mp rest
      exact ⟨⟨passed, others⟩, same⟩
    · rintro ⟨⟨passed, others⟩, same⟩
      exact ⟨_, (xmlStep_ok distinct).mpr ⟨passed, rfl⟩,
        (ih passed.short passed.distinct).mpr ⟨others, same⟩⟩

end Runs

section Documents

mutual
theorem tokens_depth (depth : Int) (n : XmlNode) : n.tokens.foldl shift depth = depth := by
  match n with
  | .text _ => rfl
  | .directive => rfl
  | .other => rfl
  | .element e children =>
    have inside := tokensOf_depth (depth + 1) children
    rw [XmlNode.tokens, List.foldl_cons, List.foldl_append, shift, inside]
    exact Int.add_sub_cancel depth 1
theorem tokensOf_depth (depth : Int) (nodes : List XmlNode) : (tokensOf nodes).foldl shift depth = depth := by
  match nodes with
  | [] => rfl
  | n :: ns => rw [tokensOf, List.foldl_append, tokens_depth depth n, tokensOf_depth depth ns]
end

theorem gather_append {α : Type} (f : Int → XmlToken → List α) (depth : Int) (first rest : List XmlToken) :
    gather f depth (first ++ rest) = gather f depth first ++ gather f (first.foldl shift depth) rest := by
  induction first generalizing depth with
  | nil => rfl
  | cons t ts ih => rw [List.cons_append, gather, gather, ih, List.append_assoc, List.foldl_cons]

-- the opening tags of a tree are its elements, one depth below where it stands
mutual
theorem starts_node (depth : Int) (n : XmlNode) : gather startAt depth n.tokens = n.elements (depth + 1) := by
  match n with
  | .text _ => rfl
  | .directive => rfl
  | .other => rfl
  | .element e children =>
    have inside := starts_nodes (depth + 1) children
    rw [XmlNode.tokens, XmlNode.elements, gather, gather_append, shift, inside]
    simp [gather, startAt]
theorem starts_nodes (depth : Int) (nodes : List XmlNode) :
    gather startAt depth (tokensOf nodes) = elementsOf (depth + 1) nodes := by
  match nodes with
  | [] => rfl
  | n :: ns => rw [tokensOf, elementsOf, gather_append, tokens_depth, starts_node depth n, starts_nodes depth ns]
end

mutual
theorem text_inside_node {depth : Int} (inside : 0 < depth) (n : XmlNode) : gather textAt depth n.tokens = [] := by
  match n with
  | .text _ =>
    have below : depth ≠ 0 := by omega
    simp [XmlNode.tokens, gather, textAt, below]
  | .directive => rfl
  | .other => rfl
  | .element e children =>
    have deeper := text_inside_nodes (Int.lt_trans inside (Int.lt_succ depth)) children
    rw [XmlNode.tokens, gather, gather_append, shift, deeper]
    rfl
theorem text_inside_nodes {depth : Int} (inside : 0 < depth) (nodes : List XmlNode) :
    gather textAt depth (tokensOf nodes) = [] := by
  match nodes with
  | [] => rfl
  | n :: ns =>
    rw [tokensOf, gather_append, tokens_depth, text_inside_node inside n, text_inside_nodes inside ns]
    rfl
end

/-- The texts outside all elements are the texts among the top-level nodes. -/
theorem mem_outside (nodes : List XmlNode) (blank : Bool) :
    blank ∈ gather textAt 0 (tokensOf nodes) ↔ XmlNode.text blank ∈ nodes := by
  induction nodes with
  | nil => simp [tokensOf, gather]
  | cons n ns ih =>
    rw [tokensOf, gather_append, tokens_depth, List.mem_append, ih, List.mem_cons]
    apply or_congr_left
    cases n with
    | text b => simp [XmlNode.tokens, gather, textAt]
    | directive => simp [XmlNode.tokens, gather, textAt]
    | other => simp [XmlNode.tokens, gather, textAt]
    | element e children =>
      have inside := text_inside_nodes (show (0 : Int) < 0 + 1 by decide) children
      rw [XmlNode.tokens, gather, gather_append, shift, inside]
      simp [gather, textAt]

mutual
theorem depth_node (depth : Int) (n : XmlNode) : ∀ p ∈ n.elements depth, depth ≤ p.1 := by
  match n with
  | .text _ => exact nofun
  | .directive => exact nofun
  | .other => exact nofun
  | .element e children =>
    rw [XmlNode.elements]
    intro p hp
    rcases List.mem_cons.mp hp with rfl | hp
    · exact Int.le_refl _
    · have := depth_nodes (depth + 1) children p hp
      omega
theorem depth_nodes (depth : Int) (nodes : List XmlNode) : ∀ p ∈ elementsOf depth nodes, depth ≤ p.1 := by
  match nodes with
  | [] => exact nofun
  | n :: ns =>
    rw [elementsOf, List.forall_mem_append]
    exact ⟨depth_node depth n, depth_nodes depth ns⟩
end

def XmlNode.top : XmlNode → Option XmlElement
  | .element e _ => some e
  | _ => none

theorem outermost (depth : Int) (nodes : List XmlNode) :
    (elementsOf depth nodes).filter (fun p => p.1 == depth) =
    (nodes.filterMap XmlNode.top).map (fun e => (depth, e)) := by
  induction nodes with
  | nil => rfl
  | cons n ns ih =>
    rw [elementsOf, List.filter_append, ih]
    cases n with
    | element e children =>
      have deeper : (elementsOf (depth + 1) children).filter (fun p => p.1 == depth) = [] := by
        rw [List.filter_eq_nil_iff]
        intro p hp
        have := depth_nodes (depth + 1) children p hp
        simp only [beq_iff_eq]
        omega
      simp [XmlNode.elements, XmlNode.top, deeper]
    | text b => rfl
    | directive => rfl
    | other => rfl

theorem no_top (nodes : List XmlNode) : nodes.filterMap XmlNode.top = [] ↔ nodes.filter XmlNode.isElement = [] := by
  rw [List.filterMap_eq_nil_iff, List.filter_eq_nil_iff]
  apply forall₂_congr
  intro n _
  cases n with
  | element e children => exact ⟨nofun, fun h => absurd rfl h⟩
  | text b => exact ⟨fun _ => nofun, fun _ => rfl⟩
  | directive => exact ⟨fun _ => nofun, fun _ => rfl⟩
  | other => exact ⟨fun _ => nofun, fun _ => rfl⟩

theorem single_top (nodes : List XmlNode) (e : XmlElement) : nodes.filterMap XmlNode.top = [e] ↔
    ∃ children, nodes.filter XmlNode.isElement = [.element e children] := by
  induction nodes with
  | nil => exact ⟨nofun, nofun⟩
  | cons n ns ih =>
    cases n with
    | element e' children =>
      change e' :: ns.filterMap XmlNode.top = [e] ↔
        ∃ children', .element e' children :: ns.filter XmlNode.isElement = [XmlNode.element e children']
      rw [List.cons.injEq, no_top]
      constructor
      · rintro ⟨rfl, others⟩
        exact ⟨children, by rw [others]⟩
      · rintro ⟨children', same⟩
        cases (List.cons.inj same).1
        exact ⟨rfl, (List.cons.inj same).2⟩
    | text b => exact ih
    | directive => exact ih
    | other => exact ih

/-- One element of depth one, a response, is one top-level element that is a response. -/
theorem root_iff (nodes : List XmlNode) :
    ((elementsOf 1 nodes).countP (fun p => p.1 == 1) = 1 ∧
      ∀ p ∈ elementsOf 1 nodes, p.1 = 1 → p.2.isResponse = true) ↔
      ∃ e children, nodes.filter XmlNode.isElement = [.element e children] ∧ e.isResponse = true := by
  have tops := outermost 1 nodes
  have member : ∀ e, e ∈ nodes.filterMap XmlNode.top ↔ (1, e) ∈ elementsOf 1 nodes := by
    intro e
    have both : (1, e) ∈ (elementsOf 1 nodes).filter (fun p => p.1 == 1) ↔ (1, e) ∈ elementsOf 1 nodes := by
      simp
    rw [← both, tops]
    simp
  rw [List.countP_eq_length_filter, tops, List.length_map, List.length_eq_one_iff]
  constructor
  · rintro ⟨⟨e, one⟩, responses⟩
    obtain ⟨children, single⟩ := (single_top nodes e).mp one
    have here := (member e).mp (by rw [one]; exact List.mem_singleton_self e)
    exact ⟨e, children, single, responses _ here rfl⟩
  · rintro ⟨e, children, single, response⟩
    have one := (single_top nodes e).mpr ⟨children, single⟩
    refine ⟨⟨e, one⟩, ?_⟩
    rintro ⟨depth, e'⟩ here rfl
    have top := (member e').mpr here
    rw [one, List.mem_singleton] at top
    rw [top]
    exact response

theorem one_of_depth {found : List (Int × XmlElement)} (p : Int × XmlElement → Bool) (depth : Int) :
    (found.countP p = 1 ∧ ∀ q ∈ found, p q = true → q.1 = depth) ↔
    (found.filter p).map Prod.fst = [depth] := by
  have member : ∀ q, q ∈ found.filter p ↔ q ∈ found ∧ p q = true := fun q => List.mem_filter
  rw [List.countP_eq_length_filter, List.length_eq_one_iff]
  constructor
  · rintro ⟨⟨q, one⟩, all⟩
    obtain ⟨here, chosen⟩ := (member q).mp (by rw [one]; exact List.mem_singleton_self q)
    rw [one, List.map_singleton, all q here chosen]
  · intro single
    obtain ⟨q, one, same⟩ := List.map_eq_singleton_iff.mp single
    refine ⟨⟨q, one⟩, ?_⟩
    intro q' here chosen
    have equal := (member q').mpr ⟨here, chosen⟩
    rw [one, List.mem_singleton] at equal
    rw [equal, same]

theorem shape_iff (nodes : List XmlNode) : Shape nodes ↔
    Passes {} (tokensOf nodes) ∧ (advance {} (tokensOf nodes)).roots = 1 ∧
      (advance {} (tokensOf nodes)).assertions = 1 ∧
      1 ≤ (advance {} (tokensOf nodes)).signatures ∧ (advance {} (tokensOf nodes)).signatures ≤ 2 := by
  have found : gather startAt 0 (tokensOf nodes) = elementsOf 1 nodes := starts_nodes 0 nodes
  have roots : (advance {} (tokensOf nodes)).roots = (elementsOf 1 nodes).countP (fun p => p.1 == 1) := by
    simp [advance, found]
  have assertions : (advance {} (tokensOf nodes)).assertions =
      (elementsOf 1 nodes).countP (fun p => p.2.isAssertion) := by
    simp [advance, found]
  have signatures : (advance {} (tokensOf nodes)).signatures =
      (elementsOf 1 nodes).countP (fun p => p.2.isSignature) := by
    simp [advance, found]
  have ids : (advance {} (tokensOf nodes)).ids = (identifiers (elementsOf 1 nodes)).reverse := by
    simp [advance, found]
  rw [roots, assertions, signatures]
  constructor
  · intro h
    obtain ⟨one, responses⟩ := (root_iff nodes).mpr h.root
    obtain ⟨single, child⟩ := (one_of_depth (fun p => p.2.isAssertion) 2).mpr h.assertion
    obtain ⟨number, near⟩ := h.signatures
    rw [← List.countP_eq_length_filter] at number
    refine ⟨⟨?_, h.undirected, ?_, ?_, ?_, ?_⟩, one, single, by omega, by omega⟩
    · have := h.short
      simpa using this
    · intro b hb
      have top := (mem_outside nodes b).mp hb
      cases b with
      | true => rfl
      | false => exact absurd top h.blank
    · rw [found]
      intro p hp
      exact ⟨h.shallow p hp, responses p hp, child p hp, h.unencrypted p hp,
        fun signature => near p (List.mem_filter.mpr ⟨hp, signature⟩), h.allowed p hp⟩
    · rw [found]
      exact h.identified.1
    · rw [ids]
      exact List.nodup_reverse.mpr h.identified.2
  · rintro ⟨passes, one, single, least, most⟩
    have elements := passes.elements
    have identified := passes.identified
    have distinct := passes.distinct
    rw [found] at elements identified
    rw [ids] at distinct
    refine ⟨?_, passes.undirected, ?_, ?_, fun p hp => (elements p hp).shallow,
      fun p hp => (elements p hp).unencrypted,
      ?_, ⟨?_, ?_⟩, ⟨identified, List.nodup_reverse.mp distinct⟩, fun p hp => (elements p hp).allowed⟩
    · have := passes.short
      simpa using this
    · intro stray
      have := passes.blank false ((mem_outside nodes false).mpr stray)
      cases this
    · exact (root_iff nodes).mp ⟨one, fun p hp => (elements p hp).root⟩
    · exact (one_of_depth (fun p => p.2.isAssertion) 2).mp ⟨single, fun p hp => (elements p hp).assertion⟩
    · rw [← List.countP_eq_length_filter]
      omega
    · intro p hp
      obtain ⟨here, signature⟩ := List.mem_filter.mp hp
      exact (elements p here).signature signature

/-- The check accepts the tokens of a document exactly when the document has the shape. -/
theorem accepted_iff_shape (lib : SAMLLibrary) (raw : Text) (nodes : List XmlNode) (present : raw ≠ [])
    (small : raw.size ≤ 65536) (document : lib.tokens raw = (tokensOf nodes, true)) :
    boundedSAMLXML lib raw = .ok () ↔ Shape nodes := by
  have bounded : ¬ (raw.isEmpty || decide (65536 < raw.size)) = true := by
    simp [present, small]
  have level : (advance {} (tokensOf nodes)).depth = 0 := tokensOf_depth 0 nodes
  rw [shape_iff]
  unfold boundedSAMLXML
  simp only [throw_if_ok, bind_ok, document]
  rw [and_iff_right bounded]
  constructor
  · rintro ⟨st, folded, -, counted⟩
    obtain ⟨passes, rfl⟩ := (fold_ok (Nat.zero_le _) List.nodup_nil).mp folded
    split at counted
    · cases counted
    · rename_i counters
      simp only [level, bne_self_eq_false, Bool.false_or, Bool.or_eq_true, bne_iff_ne, decide_eq_true_eq, not_or,
        not_not, Nat.not_lt] at counters
      obtain ⟨⟨⟨roots, assertions⟩, least⟩, most⟩ := counters
      exact ⟨passes, roots, assertions, least, most⟩
  · rintro ⟨passes, roots, assertions, least, most⟩
    refine ⟨_, (fold_ok (Nat.zero_le _) List.nodup_nil).mpr ⟨passes, rfl⟩, by decide, ?_⟩
    rw [if_neg]
    · rfl
    · simp only [level, roots, assertions, bne_self_eq_false, Bool.false_or, Bool.or_eq_true,
        decide_eq_true_eq, not_or]
      omega

def sampleDocument : List XmlNode :=
  [.other, .text true,
    .element ⟨samlProtocol, "Response", [("ID", "r")]⟩
      [.element ⟨samlAssertion, "Assertion", [("ID", "a")]⟩
        [.element ⟨xmlSignature, "Signature", []⟩ [.element ⟨xmlSignature, "Reference", [("URI", "#a")]⟩ []],
          .text false]]]

def sampleLibrary : SAMLLibrary where
  tokens _ := (tokensOf sampleDocument, true)
  envelope _ := true
  certificate _ := none

theorem sample_has_shape : Shape sampleDocument :=
  (accepted_iff_shape sampleLibrary "document" sampleDocument (by decide) (by decide) rfl).mp (by rfl)

end Documents

end Federation.SamlShape
