import BaobabIam.Base.Record
import Mathlib.Logic.Function.Basic
import Mathlib.Data.List.Nodup

/-! Structs that are decoded leniently and written back. Unknown members are passed over,
a null is the absent value, and what is empty may be omitted when it is written. A struct
is given by the table of its fields; a value is a function of the field. -/
namespace Wire

mutual
def distinctKeys : Json → Bool
  | .arr xs => distinctElems xs
  | .obj ms => decide (ms.map Prod.fst).Nodup && distinctMembers ms
  | _ => true
def distinctElems : List Json → Bool
  | [] => true
  | x :: xs => distinctKeys x && distinctElems xs
def distinctMembers : List (Text × Json) → Bool
  | [] => true
  | (_, x) :: ms => distinctKeys x && distinctMembers ms
end

theorem distinctMembers_iff (ms : Members) :
    distinctMembers ms = true ↔ ∀ m ∈ ms, distinctKeys m.2 = true := by
  induction ms with
  | nil => simp [distinctMembers]
  | cons m ms ih => simp [distinctMembers, ih]

section Numbers

/- A document that is held as a tree of values loses the literals of its numbers: each is
read as a floating point number, or refused, and written as `renumber` says. -/
variable (renumber : Text → Option Text)

mutual
def reencode : Json → Option Json
  | .num literal => (renumber literal).map .num
  | .arr xs => (reencodeElems xs).map .arr
  | .obj ms => (reencodeMembers ms).map .obj
  | j => some j
def reencodeElems : List Json → Option (List Json)
  | [] => some []
  | x :: xs => (reencode x).bind (fun y => (reencodeElems xs).map (fun ys => y :: ys))
def reencodeMembers : List (Text × Json) → Option (List (Text × Json))
  | [] => some []
  | (name, x) :: ms => (reencode x).bind (fun y => (reencodeMembers ms).map (fun ns => (name, y) :: ns))
end

variable {V : Type} (value : Text → V)

mutual
def Same : Json → Json → Prop
  | .null, .null => True
  | .bool a, .bool b => a = b
  | .num a, .num b => value a = value b
  | .str a, .str b => a = b
  | .arr xs, .arr ys => SameElems xs ys
  | .obj ms, .obj ns => SameMembers ms ns
  | _, _ => False
def SameElems : List Json → List Json → Prop
  | [], [] => True
  | x :: xs, y :: ys => Same x y ∧ SameElems xs ys
  | _, _ => False
def SameMembers : List (Text × Json) → List (Text × Json) → Prop
  | [], [] => True
  | (name, x) :: ms, (name', y) :: ns => name = name' ∧ Same x y ∧ SameMembers ms ns
  | _, _ => False
end

mutual
theorem same_refl (j : Json) : Same value j j := by
  match j with
  | .null => simp [Same]
  | .bool _ => simp [Same]
  | .num _ => simp [Same]
  | .str _ => simp [Same]
  | .arr xs => rw [Same]; exact same_refl_elems xs
  | .obj ms => rw [Same]; exact same_refl_members ms
theorem same_refl_elems (xs : List Json) : SameElems value xs xs := by
  match xs with
  | [] => simp [SameElems]
  | x :: xs => rw [SameElems]; exact ⟨same_refl x, same_refl_elems xs⟩
theorem same_refl_members (ms : Members) : SameMembers value ms ms := by
  match ms with
  | [] => simp [SameMembers]
  | (name, x) :: ms => rw [SameMembers]; exact ⟨rfl, same_refl x, same_refl_members ms⟩
end

mutual
/-- Every number keeps its value when it is read and written. -/
def Stable : Json → Prop
  | .num literal => ∃ literal', renumber literal = some literal' ∧ value literal = value literal'
  | .arr xs => StableElems xs
  | .obj ms => StableMembers ms
  | _ => True
def StableElems : List Json → Prop
  | [] => True
  | x :: xs => Stable x ∧ StableElems xs
def StableMembers : List (Text × Json) → Prop
  | [] => True
  | (_, x) :: ms => Stable x ∧ StableMembers ms
end

mutual
theorem same_reencode (j j' : Json) (h : reencode renumber j = some j') :
    Same value j j' ↔ Stable renumber value j := by
  match j with
  | .null =>
    cases h
    simp [Same, Stable]
  | .bool b =>
    cases h
    simp [Same, Stable]
  | .str s =>
    cases h
    simp [Same, Stable]
  | .num literal =>
    obtain ⟨literal', read, rfl⟩ := Option.map_eq_some_iff.mp h
    simp [Same, Stable, read]
  | .arr xs =>
    obtain ⟨ys, read, rfl⟩ := Option.map_eq_some_iff.mp h
    rw [Same, Stable]
    exact same_reencodeElems xs ys read
  | .obj ms =>
    obtain ⟨ns, read, rfl⟩ := Option.map_eq_some_iff.mp h
    rw [Same, Stable]
    exact same_reencodeMembers ms ns read
theorem same_reencodeElems (xs ys : List Json) (h : reencodeElems renumber xs = some ys) :
    SameElems value xs ys ↔ StableElems renumber value xs := by
  match xs with
  | [] =>
    cases h
    simp [SameElems, StableElems]
  | x :: xs =>
    obtain ⟨y, first, rest⟩ := Option.bind_eq_some_iff.mp h
    obtain ⟨ys', others, rfl⟩ := Option.map_eq_some_iff.mp rest
    rw [SameElems, StableElems, same_reencode x y first, same_reencodeElems xs ys' others]
theorem same_reencodeMembers (ms ns : Members) (h : reencodeMembers renumber ms = some ns) :
    SameMembers value ms ns ↔ StableMembers renumber value ms := by
  match ms with
  | [] =>
    cases h
    simp [SameMembers, StableMembers]
  | (name, x) :: ms =>
    obtain ⟨y, first, rest⟩ := Option.bind_eq_some_iff.mp h
    obtain ⟨ns', others, rfl⟩ := Option.map_eq_some_iff.mp rest
    rw [SameMembers, StableMembers, same_reencode x y first, same_reencodeMembers ms ns' others]
    simp
end

end Numbers

section Kinds

/-- Texts, lists of texts and maps of documents. An empty list is omitted or written; the
others are omitted when they are empty. -/
inductive Kind where
  | text
  | list (omitEmpty : Bool)
  | map
  deriving DecidableEq

namespace Kind

@[reducible] def Value : Kind → Type
  | .text => Text
  -- absent, or a list
  | .list _ => Option (List Text)
  | .map => List (Text × Json)

def zero : (k : Kind) → k.Value
  | .text => []
  | .list _ => none
  | .map => []

/-- The elements of a list; a null leaves what stood at its place. -/
def readElements : List Text → List Json → Option (List Text)
  | _, [] => some []
  | old, .str s :: xs => (readElements old.tail xs).map (fun ts => s :: ts)
  | old, .null :: xs => (readElements old.tail xs).map (fun ts => old.headD [] :: ts)
  | _, _ :: _ => none

def setMember (ms : Members) (m : Text × Json) : List (Text × Json) :=
  if m.1 ∈ ms.map Prod.fst then ms.map (fun old => if old.1 = m.1 then m else old) else ms ++ [m]

def read (renumber : Text → Option Text) : (k : Kind) → Json → k.Value → Option k.Value
  | .text, .str s, _ => some s
  | .text, .null, old => some old
  | .list _, .arr xs, old => (readElements (old.getD []) xs).map some
  | .list _, .null, _ => some none
  | .map, .obj ms, old => (reencodeMembers renumber ms).map (fun ns => ns.foldl setMember old)
  | .map, .null, _ => some []
  | _, _, _ => none

def write : (k : Kind) → k.Value → Option Json
  | .text, s => if s = [] then none else some (.str s)
  | .list false, none => some .null
  | .list false, some ts => some (.arr (ts.map .str))
  | .list true, none => none
  | .list true, some ts => if ts = [] then none else some (.arr (ts.map .str))
  | .map, ms => if ms = [] then none else some (.obj ms)

variable (renumber : Text → Option Text) {V : Type} (value : Text → V)

def Shown : Kind → Json → Prop
  | .text, j => ∃ s, j = .str s ∧ s ≠ []
  | .list omitEmpty, j => (j = .null ∧ omitEmpty = false) ∨
      ∃ ts : List Text, j = .arr (ts.map .str) ∧ (omitEmpty = true → ts ≠ [])
  | .map, j => ∃ ms, j = .obj ms ∧ ms ≠ [] ∧ StableMembers renumber value ms

end Kind

def SameMember {V : Type} (value : Text → V) : Option Json → Option Json → Prop
  | none, none => True
  | some a, some b => Same value a b
  | _, _ => False

section Preserved

open Kind

variable {renumber : Text → Option Text} {V : Type} {value : Text → V}

theorem sameMember_refl (j : Option Json) : SameMember value j j := by
  cases j with
  | none => exact True.intro
  | some j => exact same_refl value j

/-- A list read over nothing is the list, except that nulls become empty texts. -/
theorem same_elements {xs : List Json} {ts : List Text} (h : readElements [] xs = some ts) :
    SameElems value xs (ts.map .str) ↔ xs = ts.map .str := by
  induction xs generalizing ts with
  | nil =>
    cases h
    simp [SameElems]
  | cons x xs ih =>
    cases x with
    | str s =>
      obtain ⟨us, rest, rfl⟩ := Option.map_eq_some_iff.mp h
      simp [SameElems, Same, ih rest]
    | null =>
      obtain ⟨us, rest, rfl⟩ := Option.map_eq_some_iff.mp h
      simp [SameElems, Same]
    | _ => cases h

theorem readElements_texts (old : List Text) (ts : List Text) : readElements old (ts.map .str) = some ts := by
  induction ts generalizing old with
  | nil => rfl
  | cons t ts ih => simp [readElements, ih]

theorem reencodeMembers_keys {ms ns : Members} (h : reencodeMembers renumber ms = some ns) :
    ns.map Prod.fst = ms.map Prod.fst := by
  induction ms generalizing ns with
  | nil =>
    cases h
    rfl
  | cons m ms ih =>
    obtain ⟨y, -, rest⟩ := Option.bind_eq_some_iff.mp h
    obtain ⟨ns', others, rfl⟩ := Option.map_eq_some_iff.mp rest
    simp [ih others]

theorem setMembers_distinct (old ns : Members) (distinct : ((old ++ ns).map Prod.fst).Nodup) :
    ns.foldl setMember old = old ++ ns := by
  induction ns generalizing old with
  | nil => simp
  | cons m ns ih =>
    have fresh : m.1 ∉ old.map Prod.fst := by
      intro seen
      rw [List.map_append, List.map_cons] at distinct
      exact (List.nodup_append.mp distinct).2.2 m.1 seen m.1 List.mem_cons_self rfl
    rw [List.foldl_cons, setMember, if_neg fresh, ih]
    · simp
    · simpa using distinct

theorem same_text {j : Json} {v : Text} (h : Kind.text.read renumber j [] = some v) :
    SameMember value (some j) (Kind.text.write v) ↔ Kind.text.Shown renumber value j := by
  cases j with
  | str s =>
    obtain rfl : s = v := Option.some.inj h
    by_cases empty : s = []
    · subst empty
      exact iff_of_false (fun h => h) (by rintro ⟨s, ⟨⟩, present⟩; exact present rfl)
    · have written : Kind.text.write s = some (.str s) := if_neg empty
      rw [written]
      exact iff_of_true rfl ⟨s, rfl, empty⟩
  | null =>
    cases h
    exact iff_of_false (fun h => h) (by rintro ⟨s, ⟨⟩, -⟩)
  | _ => cases h

theorem same_list {omitEmpty : Bool} {j : Json} {v : Option (List Text)}
    (h : (Kind.list omitEmpty).read renumber j none = some v) :
    SameMember value (some j) ((Kind.list omitEmpty).write v) ↔ (Kind.list omitEmpty).Shown renumber value j := by
  cases j with
  | arr xs =>
    obtain ⟨ts, read, rfl⟩ := Option.map_eq_some_iff.mp h
    have same : SameMember value (some (.arr xs)) (some (.arr (ts.map .str))) ↔ xs = ts.map .str := by
      rw [SameMember, Same]
      exact same_elements read
    have shown : (Kind.list omitEmpty).Shown renumber value (.arr xs) ↔ xs = ts.map .str ∧
        (omitEmpty = true → ts ≠ []) := by
      constructor
      · rintro (⟨⟨⟩, -⟩ | ⟨us, ⟨⟩, present⟩)
        obtain rfl : us = ts := Option.some.inj ((readElements_texts [] us).symm.trans read)
        exact ⟨rfl, present⟩
      · rintro ⟨rfl, present⟩
        exact .inr ⟨ts, rfl, present⟩
    rw [shown]
    cases omitEmpty with
    | false => exact same.trans (and_iff_left nofun).symm
    | true =>
      by_cases empty : ts = []
      · subst empty
        exact iff_of_false (fun h => h) (fun h => h.2 rfl rfl)
      · have written : (Kind.list true).write (some ts) = some (.arr (ts.map .str)) := if_neg empty
        rw [written, same]
        exact (and_iff_left (fun _ => empty)).symm
  | null =>
    cases h
    cases omitEmpty with
    | true => exact iff_of_false (fun h => h) (by rintro (⟨-, ⟨⟩⟩ | ⟨ts, ⟨⟩, -⟩))
    | false => exact iff_of_true True.intro (.inl ⟨rfl, rfl⟩)
  | _ => cases h

theorem same_map {j : Json} {v : Members} (distinct : distinctKeys j = true)
    (h : Kind.map.read renumber j [] = some v) :
    SameMember value (some j) (Kind.map.write v) ↔ Kind.map.Shown renumber value j := by
  cases j with
  | obj ms =>
    obtain ⟨ns, read, rfl⟩ := Option.map_eq_some_iff.mp h
    have keys := reencodeMembers_keys read
    rw [distinctKeys, Bool.and_eq_true, decide_eq_true_eq] at distinct
    rw [setMembers_distinct [] ns (by rw [List.nil_append, keys]; exact distinct.1), List.nil_append]
    by_cases empty : ms = []
    · subst empty
      cases read
      exact iff_of_false (fun h => h) (by rintro ⟨ms, ⟨⟩, present, -⟩; exact present rfl)
    · have present : ns ≠ [] := by
        rintro rfl
        exact empty (List.map_eq_nil_iff.mp keys.symm)
      have written : Kind.map.write ns = some (.obj ns) := if_neg present
      have same : SameMember value (some (.obj ms)) (some (.obj ns)) ↔ SameMembers value ms ns := by
        rw [SameMember, Same]
      rw [written, same, same_reencodeMembers renumber value ms ns read]
      constructor
      · exact fun stable => ⟨ms, rfl, empty, stable⟩
      · rintro ⟨ms', ⟨⟩, -, stable⟩
        exact stable
  | null =>
    cases h
    exact iff_of_false (fun h => h) (by rintro ⟨ms, ⟨⟩, -⟩)
  | _ => cases h

/-- What is read over nothing is written as it was exactly when it is shown. -/
theorem same_written {k : Kind} {j : Json} {v : k.Value} (distinct : distinctKeys j = true)
    (h : k.read renumber j k.zero = some v) : SameMember value (some j) (k.write v) ↔ k.Shown renumber value j := by
  cases k with
  | text => exact same_text h
  | list omitEmpty => exact same_list h
  | map => exact same_map distinct h

theorem same_absent (k : Kind) : SameMember value none (k.write k.zero) ↔ k ≠ .list false := by
  match k with
  | .text => exact iff_of_true True.intro nofun
  | .list true => exact iff_of_true True.intro nofun
  | .list false => exact iff_of_false (fun h => h) (fun h => h rfl)
  | .map => exact iff_of_true True.intro nofun

end Preserved

end Kinds

section Tables

structure FieldTable (F : Type) where
  all : List F
  name : F → Text
  kind : F → Kind
  complete : ∀ f, f ∈ all
  distinct : (all.map name).Nodup

namespace FieldTable

variable {F : Type} (t : FieldTable F) (renumber : Text → Option Text)

abbrev Record : Type := (f : F) → (t.kind f).Value

def zero : t.Record := fun f => (t.kind f).zero

/-- The field of the exact name or, without one, of a name that differs in case only. -/
def field (key : Text) : Option F :=
  match t.all.find? (fun f => t.name f = key) with
  | some f => some f
  | none => t.all.find? (fun f => foldName (t.name f) = foldName key)

def assign [DecidableEq F] (c : t.Record) (m : Text × Json) : Option t.Record :=
  match t.field m.1 with
  | none => some c
  | some f => ((t.kind f).read renumber m.2 (c f)).map (Function.update c f)

def decode [DecidableEq F] (ms : Members) : Option t.Record := ms.foldlM (t.assign renumber) t.zero

def written (c : t.Record) (fs : List F) : List (Text × Json) :=
  fs.filterMap (fun f => ((t.kind f).write (c f)).map (fun j => (t.name f, j)))

def encode (c : t.Record) : List (Text × Json) := t.written c t.all

variable {t renumber}

theorem name_inj {f g : F} (same : t.name f = t.name g) : f = g :=
  List.inj_on_of_nodup_map t.distinct (t.complete f) (t.complete g) same

theorem field_name (f : F) : t.field (t.name f) = some f := by
  have found : t.all.find? (fun g => t.name g = t.name f) = some f := by
    obtain ⟨g, hg⟩ := Option.isSome_iff_exists.mp
      (List.find?_isSome.mpr ⟨f, t.complete f, by simp⟩ : (t.all.find? (fun g => t.name g = t.name f)).isSome)
    have same : t.name g = t.name f := by simpa using List.find?_some hg
    rw [hg, name_inj same]
  simp only [field, found]

theorem decoded_field [DecidableEq F] {ms : Members} {c₀ c : t.Record}
    (exactly : ∀ m ∈ ms, m.1 ∈ t.all.map t.name)
    (once : (ms.map Prod.fst).Nodup) (h : ms.foldlM (t.assign renumber) c₀ = some c) (f : F) :
    match ms.lookup (t.name f) with
    | none => c f = c₀ f
    | some j => (t.kind f).read renumber j (c₀ f) = some (c f) := by
  induction ms generalizing c₀ with
  | nil =>
    cases h
    rfl
  | cons m ms ih =>
    obtain ⟨key, j⟩ := m
    obtain ⟨first, others⟩ := List.forall_mem_cons.mp exactly
    obtain ⟨fresh, later⟩ := List.nodup_cons.mp once
    obtain ⟨g, -, rfl⟩ := List.mem_map.mp first
    obtain ⟨c₁, step, rest⟩ := Option.bind_eq_some_iff.mp h
    simp only [assign, field_name] at step
    obtain ⟨v, read, rfl⟩ := Option.map_eq_some_iff.mp step
    have tail := ih others later rest
    by_cases here : f = g
    · subst here
      have absent : ms.lookup (t.name f) = none := by
        rw [List.lookup_eq_none_iff]
        intro m member
        have other : t.name f ≠ m.1 := by
          intro same
          exact fresh (List.mem_map.mpr ⟨m, member, same.symm⟩)
        simpa using other
      rw [absent] at tail
      simp only [Function.update_self] at tail
      simp only [List.lookup_cons_self]
      rw [tail]
      exact read
    · have other : t.name f ≠ t.name g := fun same => here (name_inj same)
      have skip : ((t.name g, j) :: ms).lookup (t.name f) = ms.lookup (t.name f) := by
        rw [List.lookup_cons, beq_false_of_ne other]
      simp only [Function.update_of_ne here] at tail
      rw [skip]
      exact tail

theorem written_unknown (c : t.Record) {fs : List F} {key : Text} (unknown : key ∉ fs.map t.name) :
    (t.written c fs).lookup key = none := by
  rw [List.lookup_eq_none_iff]
  intro m member
  obtain ⟨f, inside, written⟩ := List.mem_filterMap.mp member
  obtain ⟨j, -, rfl⟩ := Option.map_eq_some_iff.mp written
  have other : key ≠ t.name f := by
    rintro rfl
    exact unknown (List.mem_map_of_mem inside)
  simpa using other

theorem encode_unknown (c : t.Record) {key : Text} (unknown : key ∉ t.all.map t.name) :
    (t.encode c).lookup key = none :=
  written_unknown c unknown

theorem written_cons (c : t.Record) (g : F) (fs : List F) : t.written c (g :: fs) =
    ((t.kind g).write (c g)).elim (t.written c fs) (fun j => (t.name g, j) :: t.written c fs) := by
  rw [written, List.filterMap_cons]
  cases (t.kind g).write (c g) <;> rfl

theorem written_lookup [DecidableEq F] (c : t.Record) {f : F} {fs : List F} (member : f ∈ fs) :
    (t.written c fs).lookup (t.name f) = (t.kind f).write (c f) := by
  induction fs with
  | nil => cases member
  | cons g fs ih =>
    rw [written_cons]
    by_cases here : f = g
    · subst here
      cases shown : (t.kind f).write (c f) with
      | some j => exact List.lookup_cons_self
      | none =>
        by_cases again : f ∈ fs
        · exact (ih again).trans shown
        · apply written_unknown
          intro named
          obtain ⟨g, inside, same⟩ := List.mem_map.mp named
          exact again (name_inj same ▸ inside)
    · have other : t.name f ≠ t.name g := fun same => here (name_inj same)
      have inside := (List.mem_cons.mp member).resolve_left here
      cases (t.kind g).write (c g) with
      | some j =>
        rw [Option.elim_some, List.lookup_cons, beq_false_of_ne other]
        exact ih inside
      | none => exact ih inside

theorem encode_lookup [DecidableEq F] (c : t.Record) (f : F) :
    (t.encode c).lookup (t.name f) = (t.kind f).write (c f) :=
  written_lookup c (t.complete f)

end FieldTable

end Tables

end Wire
