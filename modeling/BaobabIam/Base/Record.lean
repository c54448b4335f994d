import BaobabIam.Base.JsonText
import BaobabIam.Base.Instant

/-! Codecs between values and plain JSON documents. A record is described by its
fields in the order in which they are written; reading starts from a zero value,
sets the named fields in the order of the document and refuses unknown names. -/
namespace Wire

/-- Encoding may fail, as it does for a time outside four digits of year; a
document that was written reads back as the value. -/
class Codec (α : Type) where
  encode : α → Option Json
  decode : Json → Option α
  decode_encode : ∀ a j, encode a = some j → decode j = some a
  plain_encode : ∀ a j, encode a = some j → Plain j

instance : Codec Text where
  encode s := some (.str s)
  decode
    | .str s => some s
    | _ => none
  decode_encode a j h := by cases h; rfl
  plain_encode a j h := by cases h; simp [Plain]

instance : Codec Bool where
  encode b := some (.bool b)
  decode
    | .bool b => some b
    | _ => none
  decode_encode a j h := by cases h; rfl
  plain_encode a j h := by cases h; simp [Plain]

/-- The unsigned integer of a literal made of digits only. -/
def decodeUInt64 : Json → Option UInt64
  | .num literal =>
    match Text.numeral 10 Text.digitValue? 0 literal with
    | some n => if n < 2 ^ 64 then some (UInt64.ofNat n) else none
    | none => none
  | _ => none

instance : Codec UInt64 where
  encode n := some (.num (Text.decimal n.toNat))
  decode := decodeUInt64
  decode_encode n j h := by
    have small := n.toNat_lt
    have hn := Text.numeral_decimal (n := n.toNat) (by omega)
    cases h
    simp only [decodeUInt64, hn, if_pos small, UInt64.ofNat_toNat]
  plain_encode n j h := by
    cases h
    rw [Plain]
    exact ⟨n.toNat, rfl⟩

/-- A natural number below the largest numeral that is written. -/
instance : Codec Nat where
  encode n := if n < 10 ^ 20 then some (.num (Text.decimal n)) else none
  decode
    | .num literal => Text.numeral 10 Text.digitValue? 0 literal
    | _ => none
  decode_encode n j h := by
    split at h
    · rename_i small
      cases h
      exact Text.numeral_decimal small
    · cases h
  plain_encode n j h := by
    split at h
    · cases h
      rw [Plain]
      exact ⟨n, rfl⟩
    · cases h

instance : Codec Time where
  encode t := if t.Representable then some (.str t.format) else none
  decode
    | .str s => Time.parse s
    | _ => none
  decode_encode t j h := by
    split at h
    · rename_i ht
      cases h
      exact Time.parse_format t ht
    · cases h
  plain_encode t j h := by
    split at h
    · cases h; simp [Plain]
    · cases h

/-- A pointer. Its nil is never written: such fields are omitted when empty. -/
instance [Codec α] : Codec (Option α) where
  encode a := a.bind Codec.encode
  decode j := (Codec.decode j).map some
  decode_encode a j h := by
    cases a with
    | none => cases h
    | some a => rw [Codec.decode_encode a j h]; rfl
  plain_encode a j h := by
    cases a with
    | none => cases h
    | some a => exact Codec.plain_encode a j h

def encodeList [Codec α] : List α → Option (List Json)
  | [] => some []
  | a :: as => (Codec.encode a).bind (fun j => (encodeList as).map (fun js => j :: js))

def decodeList [Codec α] : List Json → Option (List α)
  | [] => some []
  | j :: js => (Codec.decode j).bind (fun a => (decodeList js).map (fun as => a :: as))

theorem encodeList_spec [Codec α] (as : List α) (js : List Json) (h : encodeList as = some js) :
    decodeList js = some as ∧ PlainElems js := by
  induction as generalizing js with
  | nil => cases h; exact ⟨rfl, by simp [PlainElems]⟩
  | cons a as ih =>
    simp only [encodeList, Option.bind_eq_some_iff, Option.map_eq_some_iff] at h
    obtain ⟨j, hj, rest, hrest, rfl⟩ := h
    obtain ⟨hd, hp⟩ := ih rest hrest
    refine ⟨?_, ?_⟩
    · simp only [decodeList, Codec.decode_encode a j hj, Option.bind_some, hd, Option.map_some]
    · rw [PlainElems]
      exact ⟨Codec.plain_encode a j hj, hp⟩

instance [Codec α] : Codec (List α) where
  encode as := (encodeList as).map .arr
  decode
    | .arr js => decodeList js
    | _ => none
  decode_encode as j h := by
    obtain ⟨js, hjs, rfl⟩ := Option.map_eq_some_iff.mp h
    exact (encodeList_spec as js hjs).1
  plain_encode as j h := by
    obtain ⟨js, hjs, rfl⟩ := Option.map_eq_some_iff.mp h
    rw [Plain]
    exact (encodeList_spec as js hjs).2

/-- An enumeration written as a string; other strings are refused. -/
@[reducible] def nameCodec {α : Type} (name : α → Text) (all : List α) (inj : ∀ a b, name a = name b → a = b)
    (complete : ∀ a, a ∈ all) : Codec α where
  encode a := some (.str (name a))
  decode
    | .str s => all.find? (fun a => name a == s)
    | _ => none
  decode_encode a j h := by
    cases h
    have found : (all.find? (fun b => name b == name a)).isSome = true := by
      rw [List.find?_isSome]
      exact ⟨a, complete a, by simp⟩
    obtain ⟨b, hb⟩ := Option.isSome_iff_exists.mp found
    have same : name b = name a := by simpa using List.find?_some hb
    rw [inj b a same] at hb
    exact hb
  plain_encode a j h := by cases h; simp [Plain]

/-- A string type with declared constants: any text is read. -/
@[reducible] def textCodec {α : Type} (name : α → Text) (ofName : Text → α) (back : ∀ a, ofName (name a) = a) :
    Codec α where
  encode a := some (.str (name a))
  decode
    | .str s => some (ofName s)
    | _ => none
  decode_encode a j h := by cases h; exact congrArg some (back a)
  plain_encode a j h := by cases h; simp [Plain]

structure RecordField (α : Type) where
  {β : Type}
  name : Text
  get : α → β
  set : β → α → α
  omitted : β → Bool
  codec : Codec β

namespace RecordField

def of {α γ : Type} [c : Codec γ] (name : String) (get : α → γ) (set : γ → α → α) : RecordField α :=
  ⟨name, get, set, fun _ => false, c⟩

def omitEmpty {α γ : Type} [c : Codec γ] (name : String) (empty : γ → Bool) (get : α → γ)
    (set : γ → α → α) : RecordField α :=
  ⟨name, get, set, empty, c⟩

/-- Copy one field from `a` into `b`. -/
def copy (f : RecordField α) (a b : α) : α := if f.omitted (f.get a) then b else f.set (f.get a) b

end RecordField

def encodeFields : List (RecordField α) → α → Option (List (Text × Json))
  | [], _ => some []
  | f :: fs, a =>
    if f.omitted (f.get a) then encodeFields fs a
    else (f.codec.encode (f.get a)).bind (fun j =>
      (encodeFields fs a).map (fun ms => (f.name, j) :: ms))

/-- Case is folded for the ASCII letters, and for the two other characters that fold
to one of them: the long s and the Kelvin sign. -/
def foldChar (c : Char) : Char :=
  if c.toNat = 0x17f then 'S' else if c.toNat = 0x212a then 'K' else c.toUpper

/-- Names match regardless of case when no name matches exactly. -/
def foldName (name : Text) : Text := name.map foldChar

def fieldNamed (fs : List (RecordField α)) (name : Text) : Option (RecordField α) :=
  match fs.find? (fun f => f.name == name) with
  | some f => some f
  | none => fs.find? (fun f => foldName f.name == foldName name)

def decodeFields (fs : List (RecordField α)) : List (Text × Json) → α → Option α
  | [], b => some b
  | (name, j) :: ms, b =>
    match fieldNamed fs name with
    | none => none
    | some f =>
      match f.codec.decode j with
      | none => none
      | some v => decodeFields fs ms (f.set v b)

theorem fieldNamed_self (fs : List (RecordField α)) (distinct : (fs.map RecordField.name).Nodup) (f : RecordField α)
    (member : f ∈ fs) : fieldNamed fs f.name = some f := by
  have found : fs.find? (fun g => g.name == f.name) = some f := by
    induction fs with
    | nil => cases member
    | cons g fs ih =>
      simp only [List.map_cons, List.nodup_cons] at distinct
      rcases List.mem_cons.mp member with rfl | member
      · simp
      · have hne : g.name ≠ f.name := by
          intro he
          exact distinct.1 (he ▸ List.mem_map_of_mem member)
        rw [List.find?_cons_of_neg (by simpa using hne)]
        exact ih distinct.2 member
  simp only [fieldNamed, found]

theorem encodeFields_names (fs : List (RecordField α)) (a : α) (ms : Members)
    (h : encodeFields fs a = some ms) :
    (ms.map Prod.fst).Sublist (fs.map RecordField.name) ∧ PlainMembers ms := by
  induction fs generalizing ms with
  | nil => cases h; exact ⟨List.Sublist.slnil, by simp [PlainMembers]⟩
  | cons f fs ih =>
    unfold encodeFields at h
    split at h
    · have rest := ih ms h
      exact ⟨rest.1.cons _, rest.2⟩
    · simp only [Option.bind_eq_some_iff, Option.map_eq_some_iff] at h
      obtain ⟨j, hj, rest, hrest, rfl⟩ := h
      obtain ⟨hs, hp⟩ := ih rest hrest
      refine ⟨hs.cons_cons _, ?_⟩
      rw [PlainMembers]
      exact ⟨f.codec.plain_encode _ j hj, hp⟩

theorem decodeFields_encode (all : List (RecordField α)) (distinct : (all.map RecordField.name).Nodup) (a : α)
    (fs : List (RecordField α)) (sub : ∀ f ∈ fs, f ∈ all) (ms : Members) (b : α)
    (h : encodeFields fs a = some ms) :
    decodeFields all ms b = some (fs.foldl (fun b f => f.copy a b) b) := by
  induction fs generalizing ms b with
  | nil => cases h; rfl
  | cons f fs ih =>
    have rest := fun g hg => sub g (List.mem_cons_of_mem _ hg)
    unfold encodeFields at h
    split at h
    · rename_i omitted
      rw [ih rest ms b h, List.foldl_cons, RecordField.copy, if_pos omitted]
    · rename_i written
      simp only [Option.bind_eq_some_iff, Option.map_eq_some_iff] at h
      obtain ⟨j, hj, others, hothers, rfl⟩ := h
      have named := fieldNamed_self all distinct f (sub f List.mem_cons_self)
      simp only [decodeFields, named, f.codec.decode_encode _ j hj]
      rw [ih rest others _ hothers, List.foldl_cons, RecordField.copy, if_neg written]

@[reducible] def recordCodec {α : Type} (fields : List (RecordField α)) (zero : α)
    (distinct : (fields.map RecordField.name).Nodup)
    (rebuild : ∀ a, fields.foldl (fun b f => f.copy a b) zero = a) : Codec α where
  encode a := (encodeFields fields a).map .obj
  decode
    | .obj ms => decodeFields fields ms zero
    | _ => none
  decode_encode a j h := by
    obtain ⟨ms, hms, rfl⟩ := Option.map_eq_some_iff.mp h
    have back := decodeFields_encode fields distinct a fields (fun f hf => hf) ms zero hms
    rw [rebuild a] at back
    exact back
  plain_encode a j h := by
    obtain ⟨ms, hms, rfl⟩ := Option.map_eq_some_iff.mp h
    have names := encodeFields_names fields a ms hms
    rw [Plain]
    exact ⟨names.2, distinct.sublist names.1⟩

/-- The text of a value, empty when it cannot be encoded. -/
def marshal [Codec α] (a : α) : Text :=
  match Codec.encode a with
  | some j => render j
  | none => []

theorem marshal_encode [Codec α] {a : α} {j : Json} (h : Codec.encode a = some j) :
    marshal a = render j := by
  simp only [marshal, h]

theorem marshal_none [Codec α] {a : α} (h : (Codec.encode a).isSome = false) : marshal a = [] := by
  simp only [marshal, Option.not_isSome_iff_eq_none.mp (by simpa using h)]

theorem render_injective {a b : Json} (plain : Plain a) (plain' : Plain b) (same : render a = render b) : a = b := by
  have read := parse_render a plain
  rw [same, parse_render b plain'] at read
  exact (Option.some.inj read).symm

/-- The text of a value that can be encoded is the text of no other value. -/
theorem marshal_injective [Codec α] {a b : α} (written : (Codec.encode a).isSome = true)
    (same : marshal a = marshal b) : a = b := by
  obtain ⟨j, hj⟩ := Option.isSome_iff_exists.mp written
  rw [marshal_encode hj] at same
  cases hk : Codec.encode b with
  | none =>
    rw [marshal_none (by rw [hk]; rfl)] at same
    exact absurd same (render_ne_nil j (Codec.plain_encode a j hj))
  | some k =>
    rw [marshal_encode hk] at same
    have equal := render_injective (Codec.plain_encode a j hj) (Codec.plain_encode b k hk) same
    have read := Codec.decode_encode a j hj
    rw [equal, Codec.decode_encode b k hk] at read
    exact (Option.some.inj read).symm

/-- Bytes of the text of a value, none when it cannot be encoded. -/
def Codec.size (c : Codec α) (a : α) : Nat :=
  match c.encode a with
  | some j => textSize j
  | none => 0

def jsonSize [c : Codec α] (a : α) : Nat := c.size a

theorem size_marshal [c : Codec α] (a : α) : (marshal a).size = jsonSize a := by
  unfold marshal jsonSize Codec.size
  split
  · exact size_render _
  · rfl

def fieldsSize : List (RecordField α) → α → Nat
  | [], _ => 0
  | f :: fs, a =>
    (if f.omitted (f.get a) then 0 else 2 + stringSize f.name + f.codec.size (f.get a)) + fieldsSize fs a

theorem membersSize_encode (fs : List (RecordField α)) (a : α) (ms : Members)
    (h : encodeFields fs a = some ms) : membersSize ms = 1 + fieldsSize fs a := by
  induction fs generalizing ms with
  | nil => cases h; rfl
  | cons f fs ih =>
    unfold encodeFields at h
    unfold fieldsSize
    split at h
    · rename_i omitted
      rw [if_pos omitted, ih ms h]
      omega
    · rename_i written
      simp only [Option.bind_eq_some_iff, Option.map_eq_some_iff] at h
      obtain ⟨j, hj, others, hothers, rfl⟩ := h
      have rest := ih others hothers
      have here : f.codec.size (f.get a) = textSize j := by simp only [Codec.size, hj]
      rw [if_neg written, membersSize, rest, here]
      omega

def namesSize (fields : List (RecordField α)) : Nat :=
  (fields.map (fun f => 2 + stringSize f.name)).sum

/-- Bounds for the values of the fields, one by one, bound the bytes of a record. -/
theorem fieldsSize_le (fields : List (RecordField α)) (a : α) (bounds : List Nat)
    (h : List.Forall₂ (fun f n => f.codec.size (f.get a) ≤ n) fields bounds) :
    fieldsSize fields a ≤ namesSize fields + bounds.sum := by
  induction h with
  | nil => exact Nat.zero_le _
  | cons first _ ih =>
    simp only [fieldsSize, namesSize, List.map_cons, List.sum_cons] at ih ⊢
    split
    · omega
    · omega

theorem record_size_le (fields : List (RecordField α)) (a : α) (bounds : List Nat)
    (h : List.Forall₂ (fun f n => f.codec.size (f.get a) ≤ n) fields bounds) :
    (match (encodeFields fields a).map Json.obj with
      | some j => textSize j
      | none => 0) ≤ 2 + namesSize fields + bounds.sum := by
  have total := fieldsSize_le fields a bounds h
  cases encoded : encodeFields fields a with
  | none => exact Nat.zero_le _
  | some ms =>
    have exactly := membersSize_encode fields a ms encoded
    change textSize (.obj ms) ≤ _
    cases ms with
    | nil => simp only [textSize]; omega
    | cons m ms =>
      obtain ⟨name, j⟩ := m
      simp only [textSize, membersSize] at exactly ⊢
      omega

theorem record_encodes (fields : List (RecordField α)) (a : α) :
    ((encodeFields fields a).map Json.obj).isSome =
      fields.all (fun f => f.omitted (f.get a) || (f.codec.encode (f.get a)).isSome) := by
  rw [Option.isSome_map]
  induction fields with
  | nil => rfl
  | cons f fs ih =>
    unfold encodeFields
    rw [List.all_cons, ← ih]
    cases f.omitted (f.get a)
    · cases f.codec.encode (f.get a) <;> simp
    · simp

section Encodes

@[simp] theorem encodes_text (t : Text) : (Codec.encode t).isSome = true := rfl
@[simp] theorem encodes_number (n : UInt64) : (Codec.encode n).isSome = true := rfl
@[simp] theorem encodes_bool (b : Bool) : (Codec.encode b).isSome = true := rfl

@[simp] theorem encodes_time (t : Time) : (Codec.encode t).isSome = decide t.Representable := by
  simp only [Codec.encode]
  split
  · rename_i h
    simp [h]
  · rename_i h
    simp [h]

@[simp] theorem encodes_option [Codec α] (a : Option α) :
    (a.isNone || (Codec.encode a).isSome) = a.all (fun a => (Codec.encode a).isSome) := by
  cases a <;> rfl

@[simp] theorem encodes_texts (ts : List Text) : (Codec.encode ts).isSome = true := by
  have all : (encodeList ts).isSome = true := by
    induction ts with
    | nil => rfl
    | cons t ts ih =>
      obtain ⟨js, hjs⟩ := Option.isSome_iff_exists.mp ih
      simp [encodeList, hjs, Codec.encode]
  simpa [Codec.encode] using all

end Encodes

section Sizes

theorem size_text_le (t : Text) {n : Nat} (h : t.size ≤ n) : jsonSize t ≤ 6 * n + 2 := by
  have := stringSize_le t
  change stringSize t ≤ _
  omega

theorem size_number_le (n : UInt64) : jsonSize n ≤ 20 :=
  Text.decimal_size_le n.toNat

theorem size_time_le (t : Time) : jsonSize t ≤ 212 := by
  unfold jsonSize Codec.size
  split
  · rename_i j hj
    simp only [Codec.encode] at hj
    split at hj
    · rename_i representable
      cases hj
      have bound := stringSize_le t.format
      have short := Time.format_size_le t representable
      change stringSize t.format ≤ _
      omega
    · cases hj
  · exact Nat.zero_le _

theorem size_singleton [c : Codec α] (a : α) :
    jsonSize [a] ≤ 2 + jsonSize a := by
  cases h : c.encode a with
  | none => simp [jsonSize, Codec.size, Codec.encode, encodeList, h]
  | some j =>
    simp only [jsonSize, Codec.size, h]
    have whole : (Codec.encode [a]) = some (.arr [j]) := by
      simp [Codec.encode, encodeList, h]
    simp only [whole, textSize, elemsSize]
    omega

theorem size_option_le [c : Codec α] (a : Option α) {n : Nat} (h : ∀ b ∈ a, jsonSize b ≤ n) :
    jsonSize a ≤ n := by
  cases a with
  | none => exact Nat.zero_le _
  | some b => exact h b rfl

end Sizes

end Wire
