import Mathlib.Data.List.Nodup
import BaobabIam.Base.Record

/-! The shape of what a document is decoded into: structs with named fields, lists, maps
and everything that has no fields of its own. A member of an object fills the field of
its exact name or, without one, the field whose name differs in case only. -/
namespace Wire

inductive Shape where
  /-- Texts, numbers, times, raw documents: whether one is accepted. -/
  | leaf (accepts : Json → Bool)
  | list (elem : Shape)
  | map (elem : Shape)
  | struct (names : List Text) (inner : Text → Shape)

def fieldFor (names : List Text) (key : Text) : Option Text :=
  match names.find? (fun name => name == key) with
  | some name => some name
  | none => names.find? (fun name => foldName name == foldName key)

theorem fieldNamed_name {α : Type} (fs : List (RecordField α)) (key : Text) :
    (fieldNamed fs key).map RecordField.name = fieldFor (fs.map RecordField.name) key := by
  simp only [fieldNamed, fieldFor, List.find?_map, Function.comp_def]
  cases fs.find? (fun f => f.name == key) with
  | none => rfl
  | some f => rfl

theorem fieldFor_some {names : List Text} {key name : Text} (h : fieldFor names key = some name) :
    name ∈ names ∧ foldName name = foldName key := by
  unfold fieldFor at h
  cases exactly : names.find? (fun name => name == key) with
  | some found =>
    rw [exactly] at h
    cases h
    have same : name = key := by simpa using List.find?_some exactly
    exact ⟨List.mem_of_find?_eq_some exactly, by rw [same]⟩
  | none =>
    rw [exactly] at h
    exact ⟨List.mem_of_find?_eq_some h, by simpa using List.find?_some h⟩

theorem fieldFor_iff {names : List Text} (distinct : (names.map foldName).Nodup) {key name : Text} :
    fieldFor names key = some name ↔ name ∈ names ∧ foldName name = foldName key := by
  refine ⟨fieldFor_some, ?_⟩
  rintro ⟨member, fold⟩
  have found : (fieldFor names key).isSome = true := by
    unfold fieldFor
    cases names.find? (fun name => name == key) with
    | some exactly => rfl
    | none =>
      simp only [List.find?_isSome]
      exact ⟨name, member, by simp [fold]⟩
  obtain ⟨other, filled⟩ := Option.isSome_iff_exists.mp found
  obtain ⟨inside, same⟩ := fieldFor_some filled
  rw [filled, List.inj_on_of_nodup_map distinct inside member (same.trans fold.symm)]

namespace Shape

/-- Decoding succeeds; a null is a value of every type, and strict decoding refuses
members that fill no field. -/
def accepts (strict : Bool) : Shape → Json → Bool
  | _, .null => true
  | .leaf ok, j => ok j
  | .list elem, .arr xs => xs.all (elem.accepts strict)
  | .map elem, .obj ms => ms.all (fun m => elem.accepts strict m.2)
  | .struct names inner, .obj ms => ms.all (fun m =>
      match fieldFor names m.1 with
      | some name => (inner name).accepts strict m.2
      | none => !strict)
  | _, _ => false

def Distinct : Shape → Prop
  | .leaf _ => True
  | .list elem => elem.Distinct
  | .map elem => elem.Distinct
  | .struct names inner => (names.map foldName).Nodup ∧ ∀ name, (inner name).Distinct

/-- Every field of every struct is filled by one member at most. -/
def Unambiguous : Shape → Json → Prop
  | .list elem, .arr xs => ∀ x ∈ xs, elem.Unambiguous x
  | .map elem, .obj ms => ∀ m ∈ ms, elem.Unambiguous m.2
  | .struct names inner, .obj ms => (ms.filterMap (fun m => fieldFor names m.1)).Nodup ∧
      ∀ m ∈ ms, ∀ name, fieldFor names m.1 = some name → (inner name).Unambiguous m.2
  | _, _ => True

def KeysOnce : Shape → Json → Prop
  | .list elem, .arr xs => ∀ x ∈ xs, elem.KeysOnce x
  | .map elem, .obj ms => ∀ m ∈ ms, elem.KeysOnce m.2
  | .struct names inner, .obj ms => (ms.map Prod.fst).Nodup ∧
      ∀ m ∈ ms, ∀ name, fieldFor names m.1 = some name → (inner name).KeysOnce m.2
  | _, _ => True

/-- No object that is decoded into a struct has two keys that differ in case only and
name one of the struct's fields. -/
def NoCaseVariants : Shape → Json → Prop
  | .list elem, .arr xs => ∀ x ∈ xs, elem.NoCaseVariants x
  | .map elem, .obj ms => ∀ m ∈ ms, elem.NoCaseVariants m.2
  | .struct names inner, .obj ms =>
      (∀ m ∈ ms, ∀ m' ∈ ms, (∃ name ∈ names, foldName name = foldName m.1) →
        foldName m.1 = foldName m'.1 → m.1 = m'.1) ∧
      ∀ m ∈ ms, ∀ name, fieldFor names m.1 = some name → (inner name).NoCaseVariants m.2
  | _, _ => True

theorem keysOnce_of {P : Json → Prop} (elems : ∀ xs, P (.arr xs) → ∀ x ∈ xs, P x)
    (members : ∀ ms, P (.obj ms) → (ms.map Prod.fst).Nodup ∧ ∀ m ∈ ms, P m.2) (s : Shape)
    (j : Json) (h : P j) :
    s.KeysOnce j := by
  induction s generalizing j with
  | leaf ok => cases j <;> trivial
  | list elem ih =>
    cases j with
    | arr xs => exact fun x member => ih x (elems xs h x member)
    | _ => trivial
  | map elem ih =>
    cases j with
    | obj ms => exact fun m member => ih m.2 ((members ms h).2 m member)
    | _ => trivial
  | struct names inner ih =>
    cases j with
    | obj ms => exact ⟨(members ms h).1, fun m member name _ => ih name m.2 ((members ms h).2 m member)⟩
    | _ => trivial

theorem record_accepts {α : Type} {fs : List (RecordField α)} {inner : Text → Shape}
    (each : ∀ f ∈ fs, ∀ j v, f.codec.decode j = some v → (inner f.name).accepts true j = true)
    {ms : Members}
    {a b : α} (h : decodeFields fs ms b = some a) :
    (struct (fs.map RecordField.name) inner).accepts true (.obj ms) = true := by
  simp only [accepts, List.all_eq_true]
  induction ms generalizing b with
  | nil =>
    intro m member
    cases member
  | cons first ms ih =>
    obtain ⟨key, j⟩ := first
    unfold decodeFields at h
    split at h
    · cases h
    · rename_i f named
      split at h
      · cases h
      · rename_i v decoded
        intro m member
        rcases List.mem_cons.mp member with rfl | later
        · have member : f ∈ fs := by
            unfold fieldNamed at named
            split at named
            · rename_i found
              cases named
              exact List.mem_of_find?_eq_some found
            · exact List.mem_of_find?_eq_some named
          rw [← fieldNamed_name, named]
          exact each f member j v decoded
        · exact ih h m later

def membersAt : Shape → List Text → Json → List (Text × Json)
  | .struct names inner, name :: path, .obj ms =>
    (ms.filter (fun m => decide (fieldFor names m.1 = some name))).flatMap (fun m => (inner name).membersAt path m.2)
  | _, [], .obj ms => ms
  | _, _, _ => []

section Filling

variable {α β : Type} [DecidableEq β] {g : α → Option β} {l : List α}

theorem filter_filled (once : (l.filterMap g).Nodup) (b : β) :
    l.filter (fun a => decide (g a = some b)) = [] ∨ ∃ a ∈ l, g a = some b ∧
      l.filter (fun a => decide (g a = some b)) = [a] := by
  induction l with
  | nil => exact .inl rfl
  | cons x l ih =>
    have rest := ih ((List.sublist_cons_self x l |>.filterMap g).nodup once)
    by_cases hit : g x = some b
    · rw [List.filterMap_cons_some hit, List.nodup_cons] at once
      have none : l.filter (fun a => decide (g a = some b)) = [] := by
        rw [List.filter_eq_nil_iff]
        intro a member again
        exact once.1 (List.mem_filterMap.mpr ⟨a, member, by simpa using again⟩)
      exact .inr ⟨x, List.mem_cons_self, hit, by rw [List.filter_cons_of_pos (by simp [hit]), none]⟩
    · rw [List.filter_cons_of_neg (by simpa using hit)]
      rcases rest with none | ⟨a, member, fills, one⟩
      · exact .inl none
      · exact .inr ⟨a, List.mem_cons_of_mem x member, fills, one⟩

theorem eq_of_filled (once : (l.filterMap g).Nodup) {a a' : α} {b : β} (member : a ∈ l) (member' : a' ∈ l)
    (fills : g a = some b) (fills' : g a' = some b) : a = a' := by
  have inside : a ∈ l.filter (fun a => decide (g a = some b)) := List.mem_filter.mpr ⟨member, by simp [fills]⟩
  have inside' : a' ∈ l.filter (fun a => decide (g a = some b)) := List.mem_filter.mpr ⟨member', by simp [fills']⟩
  rcases filter_filled once b with none | ⟨c, -, -, one⟩
  · rw [none] at inside
    cases inside
  · rw [one, List.mem_singleton] at inside inside'
    rw [inside, inside']

end Filling

theorem members_once_iff {names : List Text} (distinct : (names.map foldName).Nodup) {ms : Members}
    (once : (ms.map Prod.fst).Nodup) : (ms.filterMap (fun m => fieldFor names m.1)).Nodup ↔
      ∀ m ∈ ms, ∀ m' ∈ ms, (∃ name ∈ names, foldName name = foldName m.1) →
        foldName m.1 = foldName m'.1 → m.1 = m'.1 := by
  constructor
  · rintro filled m member m' member' ⟨name, known, named⟩ fold
    have fills := (fieldFor_iff distinct).mpr ⟨known, named⟩
    have fills' := (fieldFor_iff distinct).mpr ⟨known, named.trans fold⟩
    rw [eq_of_filled filled member member' fills fills']
  · intro variants
    apply List.pairwise_filterMap.mpr
    apply List.Pairwise.imp_of_mem _ (List.pairwise_map.mp once)
    intro m m' member member' differ name fills name' fills' same
    subst same
    obtain ⟨known, named⟩ := fieldFor_some fills
    obtain ⟨-, named'⟩ := fieldFor_some fills'
    exact differ (variants m member m' member' ⟨name, known, named⟩ (named.symm.trans named'))

/-- When no key is repeated, a field can be filled twice by case variants only. -/
theorem unambiguous_iff (s : Shape) (distinct : s.Distinct) (j : Json) (once : s.KeysOnce j) :
    s.Unambiguous j ↔ s.NoCaseVariants j := by
  induction s generalizing j with
  | leaf ok => cases j <;> exact Iff.rfl
  | list elem ih =>
    cases j with
    | arr xs => exact forall_congr' (fun x => forall_congr' (fun member => ih distinct x (once x member)))
    | _ => exact Iff.rfl
  | map elem ih =>
    cases j with
    | obj ms => exact forall_congr' (fun m => forall_congr' (fun member => ih distinct m.2 (once m member)))
    | _ => exact Iff.rfl
  | struct names inner ih =>
    cases j with
    | obj ms =>
      apply and_congr (members_once_iff distinct.1 once.1)
      apply forall_congr'
      intro m
      apply forall_congr'
      intro member
      apply forall_congr'
      intro name
      apply forall_congr'
      intro fills
      exact ih name (distinct.2 name) m.2 (once.2 m member name fills)
    | _ => exact Iff.rfl

end Shape

inductive Value where
  | absent
  | leaf (j : Json)
  | list (xs : List Value)
  | map (ms : List (Text × Value))
  | record (get : Text → Value)

structure Tiebreak where
  pick : List Json → Option Json
  pick_nil : pick [] = none
  pick_one : ∀ j, pick [j] = some j

namespace Shape

def filling (names : List Text) (name : Text) (ms : Members) : List (Text × Json) :=
  ms.filter (fun m => decide (fieldFor names m.1 = some name))

def read (r : Tiebreak) : Shape → Json → Value
  | .list elem, .arr xs => .list (xs.map (elem.read r))
  | .map elem, .obj ms => .map (ms.map (fun m => (m.1, elem.read r m.2)))
  | .struct names inner, .obj ms => .record (fun name =>
      match r.pick ((filling names name ms).map Prod.snd) with
      | some j => (inner name).read r j
      | none => .absent)
  | _, j => .leaf j

/-- Readers of an unambiguous document agree, however they resolve repeated members. -/
theorem read_unambiguous (r r' : Tiebreak) (s : Shape) (j : Json) (h : s.Unambiguous j) : s.read r j = s.read r' j := by
  induction s generalizing j with
  | leaf ok => cases j <;> rfl
  | list elem ih =>
    cases j with
    | arr xs => exact congrArg Value.list (List.map_congr_left (fun x member => ih x (h x member)))
    | _ => rfl
  | map elem ih =>
    cases j with
    | obj ms => exact congrArg Value.map (List.map_congr_left (fun m member => by rw [ih m.2 (h m member)]))
    | _ => rfl
  | struct names inner ih =>
    cases j with
    | obj ms =>
      apply congrArg Value.record
      funext name
      rcases filter_filled h.1 name with none | ⟨m, member, fills, one⟩
      · rw [filling, none, List.map_nil, r.pick_nil, r'.pick_nil]
      · rw [filling, one, List.map_singleton, r.pick_one, r'.pick_one]
        exact ih name m.2 (h.2 m member name fills)
    | _ => rfl

end Shape

end Wire
