import BaobabIam.Base.Bytes
import BaobabIam.Base.Record
import Mathlib.Data.List.Nodup

/-! Closed objects: read member by member from the text, each member judged when it is
read. A key that was seen, a null or a name outside the list ends the reading. -/
namespace Wire

section Streams

variable {σ : Type} (step : σ → Text → Json → Option σ)

mutual
/-- A member of an object and what follows it, each member handed to `step` in turn. -/
def streamMember : Nat → σ → Text → Option (σ × Text)
  | 0, _, _ => none
  | n + 1, s, t =>
    match skipSpace t with
    | [] => none
    | c :: t =>
      if c = '"' then
        match readString n t with
        | none => none
        | some (name, t) =>
          match skipSpace t with
          | [] => none
          | d :: t =>
            if d = ':' then
              match readValue n t with
              | none => none
              | some (x, t) =>
                match step s name x with
                | none => none
                | some s => streamMembers n s t
            else none
      else none
def streamMembers : Nat → σ → Text → Option (σ × Text)
  | 0, _, _ => none
  | n + 1, s, t =>
    match skipSpace t with
    | [] => none
    | c :: t =>
      if c = '}' then some (s, t)
      else if c = ',' then streamMember n s t
      else none
end

def streamObject (start : σ) (raw : Text) : Option σ :=
  match skipSpace raw with
  | [] => none
  | c :: t =>
    if c = '{' then
      match skipSpace t with
      | [] => none
      | d :: t =>
        match if d = '}' then some (start, t) else streamMember step raw.length start (d :: t) with
        | none => none
        | some (s, rest) => if skipSpace rest = [] then some s else none
    else none

def foldMembers (s : σ) (ms : Members) : Option σ := ms.foldlM (fun s m => step s m.1 m.2) s

variable {step}

mutual
theorem streamMember_eq (n : Nat) (s : σ) (t : Text) :
    streamMember step n s t =
      (readMember n t).bind (fun p => (foldMembers step s p.1).map (fun s => (s, p.2))) := by
  cases n with
  | zero => rw [streamMember, readMember]; rfl
  | succ n =>
    rw [streamMember, readMember]
    cases skipSpace t with
    | nil => rfl
    | cons c t =>
      by_cases quote : c = '"'
      · simp only [if_pos quote]
        cases readString n t with
        | none => rfl
        | some p =>
          obtain ⟨name, t⟩ := p
          dsimp only
          cases skipSpace t with
          | nil => rfl
          | cons d t =>
            by_cases colon : d = ':'
            · simp only [if_pos colon]
              cases readValue n t with
              | none => rfl
              | some p =>
                obtain ⟨x, t⟩ := p
                dsimp only
                have rest := fun s => streamMembers_eq n s t
                simp only [rest]
                cases readMembers n t with
                | none => cases step s name x <;> rfl
                | some p => cases h : step s name x <;> simp [foldMembers, h]
            · simp only [if_neg colon]
              rfl
      · simp only [if_neg quote]
        rfl
theorem streamMembers_eq (n : Nat) (s : σ) (t : Text) :
    streamMembers step n s t =
      (readMembers n t).bind (fun p => (foldMembers step s p.1).map (fun s => (s, p.2))) := by
  cases n with
  | zero => rw [streamMembers, readMembers]; rfl
  | succ n =>
    rw [streamMembers, readMembers]
    cases skipSpace t with
    | nil => rfl
    | cons c t =>
      by_cases close : c = '\x7d'
      · simp only [if_pos close]
        rfl
      · by_cases comma : c = ','
        · simp only [if_neg close, if_pos comma]
          exact streamMember_eq n s t
        · simp only [if_neg close, if_neg comma]
          rfl
end

/-- Reading an object member by member is reading it whole and then taking the steps. -/
theorem streamObject_eq (start : σ) (raw : Text) : streamObject step start raw =
    match parse raw with
    | some (.obj ms) => foldMembers step start ms
    | _ => none := by
  unfold streamObject parse
  cases shape : skipSpace raw with
  | nil => simp [readValue, shape]
  | cons c t =>
    by_cases brace : c = '\x7b'
    · subst brace
      rw [readValue]
      simp only [shape, Char.reduceEq, if_false, if_true]
      cases skipSpace t with
      | nil => rfl
      | cons d t =>
        by_cases close : d = '\x7d'
        · simp only [if_pos close]
          split <;> simp_all [foldMembers]
        · simp only [if_neg close]
          rw [streamMember_eq]
          cases readMember raw.length (d :: t) with
          | none => rfl
          | some p =>
            obtain ⟨ms, rest⟩ := p
            simp only [Option.map_some, Option.bind_some]
            by_cases blank : skipSpace rest = []
            · simp only [if_pos blank]
              cases foldMembers step start ms with
              | none => rfl
              | some s => exact if_pos blank
            · simp only [if_neg blank]
              cases foldMembers step start ms with
              | none => rfl
              | some s => exact if_neg blank
    · simp only [if_neg brace]
      split
      · rename_i ms parsed
        split at parsed
        · rename_i j rest read
          split at parsed
          · cases parsed
            have begins := readValue_begins read
            rw [shape] at begins
            exact absurd (Option.some.inj begins) brace
          · cases parsed
        · cases parsed
      · rfl

end Streams

section Objects

/-- A field of a closed object with the reading of its member, which may refuse values
that the plain codec would accept, and read literals that it never writes. -/
structure ClosedField (α : Type) extends RecordField α where
  read : Json → Option β

variable {α : Type}

def ClosedField.Carries (f : ClosedField α) (a : α) : Prop :=
  f.omitted (f.get a) = true ∨ ∃ j, f.codec.encode (f.get a) = some j ∧ f.read j = some (f.get a)

def Json.isNull : Json → Bool
  | .null => true
  | _ => false

/-- One member: not seen before, not null, and of a known name, spelled exactly. -/
def closedStep (fields : List (ClosedField α)) (s : List Text × α) (key : Text) (value : Json) :
    Option (List Text × α) :=
  if key ∈ s.1 then none
  else if value.isNull then none
  else
    match fields.find? (fun f => f.name = key) with
    | none => none
    | some f => (f.read value).map (fun v => (key :: s.1, f.set v s.2))

/-- The keys that were seen, the last one first, and the value. -/
def decodeClosed (fields : List (ClosedField α)) (zero : α) (raw : Text) : Option (List Text × α) :=
  streamObject (closedStep fields) ([], zero) raw

def closedNames (fields : List (ClosedField α)) : List Text := fields.map (fun f => f.name)

def ClosedObject (names : List Text) (raw : Text) (ms : Members) : Prop :=
  parse raw = some (.obj ms) ∧ (ms.map Prod.fst).Nodup ∧ ∀ m ∈ ms, m.1 ∈ names ∧ m.2 ≠ .null

variable {fields : List (ClosedField α)} {s s' : List Text × α} {ms : Members} {a : α}

theorem closedStep_some {key : Text} {value : Json}
    (h : closedStep fields s key value = some s') :
    key ∉ s.1 ∧ s'.1 = key :: s.1 ∧ key ∈ closedNames fields ∧ value ≠ .null := by
  unfold closedStep at h
  split at h
  · cases h
  · rename_i fresh
    split at h
    · cases h
    · rename_i present
      split at h
      · cases h
      · rename_i f found
        obtain ⟨v, -, rfl⟩ := Option.map_eq_some_iff.mp h
        have name : f.name = key := by simpa using List.find?_some found
        refine ⟨fresh, rfl, ?_, ?_⟩
        · rw [← name]
          exact List.mem_map_of_mem (List.mem_of_find?_eq_some found)
        · rintro rfl
          exact present rfl

theorem foldMembers_closed
    (distinct : s.1.Nodup) (h : foldMembers (closedStep fields) s ms = some s') :
    s'.1 = (ms.map Prod.fst).reverse ++ s.1 ∧ s'.1.Nodup ∧ ∀ m ∈ ms, m.1 ∈ closedNames fields ∧
      m.2 ≠ .null := by
  induction ms generalizing s with
  | nil =>
    cases h
    exact ⟨rfl, distinct, by simp⟩
  | cons m ms ih =>
    obtain ⟨next, first, rest⟩ := Option.bind_eq_some_iff.mp h
    obtain ⟨fresh, keys, named, present⟩ := closedStep_some first
    have grown : next.1.Nodup := by
      rw [keys]
      exact List.nodup_cons.mpr ⟨fresh, distinct⟩
    obtain ⟨seen, all, others⟩ := ih grown rest
    refine ⟨by rw [seen, keys]; simp, all, ?_⟩
    intro m' member
    rcases List.mem_cons.mp member with rfl | member
    · exact ⟨named, present⟩
    · exact others m' member

theorem decodeClosed_closed {zero : α} {raw : Text} {seen : List Text}
    (h : decodeClosed fields zero raw = some (seen, a)) :
    ∃ ms, ClosedObject (closedNames fields) raw ms ∧ seen = (ms.map Prod.fst).reverse := by
  unfold decodeClosed at h
  rw [streamObject_eq] at h
  split at h
  · rename_i ms parsed
    obtain ⟨keys, distinct, members⟩ := foldMembers_closed List.nodup_nil h
    rw [List.append_nil] at keys
    refine ⟨ms, ⟨parsed, ?_, members⟩, keys⟩
    dsimp only at keys distinct
    rw [keys] at distinct
    exact List.nodup_reverse.mp distinct
  · cases h

theorem find_named (distinct : (closedNames fields).Nodup) {f : ClosedField α}
    (member : f ∈ fields) : fields.find? (fun g => g.name = f.name) = some f := by
  induction fields with
  | nil => cases member
  | cons g fs ih =>
    obtain ⟨fresh, others⟩ := List.nodup_cons.mp distinct
    rcases List.mem_cons.mp member with rfl | member
    · simp
    · have other : g.name ≠ f.name := by
        intro same
        exact fresh (List.mem_map.mpr ⟨f, member, same.symm⟩)
      rw [List.find?_cons_of_neg (by simpa using other)]
      exact ih others member

/-- Fields that carry `a` are written, and their members are read back one by one. -/
theorem foldMembers_encode (all : List (ClosedField α)) (distinct : (closedNames all).Nodup) (a : α)
    (fs : List (ClosedField α)) (sub : ∀ f ∈ fs, f ∈ all) (once : (closedNames fs).Nodup)
    (carried : ∀ f ∈ fs, f.Carries a) (s : List Text × α) (fresh : ∀ f ∈ fs, f.name ∉ s.1) :
    ∃ ms, encodeFields (fs.map ClosedField.toRecordField) a = some ms ∧
      foldMembers (closedStep all) s ms =
        some ((ms.map Prod.fst).reverse ++ s.1, fs.foldl (fun b f => f.copy a b) s.2) := by
  induction fs generalizing s with
  | nil => exact ⟨[], rfl, rfl⟩
  | cons f fs ih =>
    obtain ⟨new, later⟩ := List.nodup_cons.mp once
    have subRest := fun g hg => sub g (List.mem_cons_of_mem _ hg)
    have carriedRest := fun g hg => carried g (List.mem_cons_of_mem _ hg)
    rw [List.map_cons, encodeFields, List.foldl_cons, RecordField.copy]
    split
    · exact ih subRest later carriedRest s (fun g hg => fresh g (List.mem_cons_of_mem _ hg))
    · rename_i written
      obtain ⟨j, encoded, value⟩ := (carried f List.mem_cons_self).resolve_left written
      have present : j.isNull = false := by
        have plain := f.codec.plain_encode _ j encoded
        cases j with
        | null => exact absurd plain (by simp [Plain])
        | _ => rfl
      have step : closedStep all s f.name j = some (f.name :: s.1, f.set (f.get a) s.2) := by
        have named := find_named distinct (sub f List.mem_cons_self)
        rw [closedStep, if_neg (fresh f List.mem_cons_self), present]
        simp only [Bool.false_eq_true, if_false, named, value, Option.map_some]
      have apart : ∀ g ∈ fs, g.name ∉ f.name :: s.1 := by
        intro g hg seen
        rcases List.mem_cons.mp seen with same | seen
        · exact new (List.mem_map.mpr ⟨g, hg, same⟩)
        · exact fresh g (List.mem_cons_of_mem _ hg) seen
      obtain ⟨ms, rest, folded⟩ := ih subRest later carriedRest (f.name :: s.1, f.set (f.get a) s.2) apart
      refine ⟨(f.name, j) :: ms, by rw [encoded, rest]; rfl, ?_⟩
      unfold foldMembers at folded ⊢
      rw [List.foldlM_cons, step]
      change ms.foldlM _ _ = _
      rw [folded]
      simp

/-- Decoding the text of a value gives the value back, with the keys that were written. -/
theorem decodeClosed_render (fields : List (ClosedField α)) (distinct : (closedNames fields).Nodup) (zero a : α)
    (carried : ∀ f ∈ fields, f.Carries a) (rebuild : fields.foldl (fun b f => f.copy a b) zero = a) :
    ∃ ms, encodeFields (fields.map ClosedField.toRecordField) a = some ms ∧
      decodeClosed fields zero (render (.obj ms)) = some ((ms.map Prod.fst).reverse, a) := by
  obtain ⟨ms, written, folded⟩ := foldMembers_encode fields distinct a fields (fun f hf => hf) distinct carried
    ([], zero) (fun f _ => List.not_mem_nil)
  have names := encodeFields_names _ a ms written
  have plain : Plain (.obj ms) := by
    rw [Plain]
    refine ⟨names.2, ?_⟩
    apply List.Nodup.sublist names.1
    rw [List.map_map]
    exact distinct
  rw [rebuild, List.append_nil] at folded
  refine ⟨ms, written, ?_⟩
  unfold decodeClosed
  rw [streamObject_eq, parse_render _ plain]
  exact folded

theorem written_key {fs : List (RecordField α)} (h : encodeFields fs a = some ms)
    {f : RecordField α} (member : f ∈ fs) (written : f.omitted (f.get a) = false) : f.name ∈ ms.map Prod.fst := by
  induction fs generalizing ms with
  | nil => cases member
  | cons g fs ih =>
    rw [encodeFields] at h
    split at h
    · rename_i omitted
      rcases List.mem_cons.mp member with rfl | member
      · rw [written] at omitted
        cases omitted
      · exact ih h member
    · simp only [Option.bind_eq_some_iff, Option.map_eq_some_iff] at h
      obtain ⟨j, -, others, hothers, rfl⟩ := h
      rcases List.mem_cons.mp member with rfl | member
      · exact List.mem_cons_self
      · exact List.mem_cons_of_mem _ (ih hothers member)

end Objects

section Formats

/-- A closed wire format: its fields, the value that decoding starts from, the names that
must be there, a limit on the bytes of a document and the check of a decoded value. -/
structure ClosedFormat (α : Type) where
  fields : List (ClosedField α)
  zero : α
  required : List Text
  limit : Option Nat
  valid : α → Bool

namespace ClosedFormat

variable {α : Type}

def members (f : ClosedFormat α) (a : α) : Option (List (Text × Json)) :=
  encodeFields (f.fields.map ClosedField.toRecordField) a

def marshal (f : ClosedFormat α) (a : α) : Option (List UInt8) :=
  if f.valid a then (f.members a).map (fun ms => Text.bytes (render (.obj ms))) else none

def unmarshal (f : ClosedFormat α) (raw : List UInt8) : Option α :=
  if f.limit.any (fun n => n < raw.length) then none
  else
    match decodeClosed f.fields f.zero (Text.ofBytes raw) with
    | none => none
    | some (seen, out) => if f.required.all (fun name => name ∈ seen) && f.valid out then some out else none

/-- What the fields of a format need for its values to round trip. -/
structure Lawful (f : ClosedFormat α) : Prop where
  distinct : (closedNames f.fields).Nodup
  rebuild : ∀ a, f.fields.foldl (fun b g => g.copy a b) f.zero = a
  carried : ∀ a, f.valid a = true → ∀ g ∈ f.fields, g.Carries a
  demanded : ∀ a, ∀ name ∈ f.required, ∃ g ∈ f.fields, g.name = name ∧ g.omitted (g.get a) = false
  fits : ∀ a ms, f.valid a = true → f.members a = some ms → ∀ n ∈ f.limit, textSize (.obj ms) ≤ n

/-- Decoding inverts encoding, what is accepted is a closed object and decodes to a valid
value, and that value round trips again. -/
structure RoundTrips (f : ClosedFormat α) : Prop where
  back : ∀ a, f.valid a = true → ∃ raw, f.marshal a = some raw ∧ f.unmarshal raw = some a
  closed : ∀ raw a, f.unmarshal raw = some a →
    f.valid a = true ∧ ∃ ms, ClosedObject (closedNames f.fields) (Text.ofBytes raw) ms
  again : ∀ raw a, f.unmarshal raw = some a → ∃ raw', f.marshal a = some raw' ∧ f.unmarshal raw' = some a

variable {f : ClosedFormat α} {a : α} {raw : List UInt8}

theorem Lawful.unmarshal_marshal (law : f.Lawful) (valid : f.valid a = true) :
    ∃ raw, f.marshal a = some raw ∧ f.unmarshal raw = some a := by
  obtain ⟨ms, written, decoded⟩ :=
    decodeClosed_render f.fields law.distinct f.zero a (law.carried a valid) (law.rebuild a)
  refine ⟨Text.bytes (render (.obj ms)), by rw [marshal, if_pos valid, members, written]; rfl, ?_⟩
  have small : f.limit.any (fun n => n < (Text.bytes (render (.obj ms))).length) = false := by
    rw [Text.length_bytes, size_render]
    cases limit : f.limit with
    | none => rfl
    | some n => simpa using law.fits a ms valid written n limit
  have keys : f.required.all (fun name => name ∈ (ms.map Prod.fst).reverse) = true := by
    rw [List.all_eq_true]
    intro name demanded
    obtain ⟨g, member, rfl, here⟩ := law.demanded a name demanded
    have key := written_key written (List.mem_map_of_mem member) here
    simpa using key
  rw [unmarshal, small, Text.ofBytes_bytes, decoded]
  simp only [Bool.false_eq_true, if_false, keys, valid, Bool.and_self, if_true]

theorem unmarshal_closed (h : f.unmarshal raw = some a) :
    f.valid a = true ∧ ∃ ms, ClosedObject (closedNames f.fields) (Text.ofBytes raw) ms := by
  unfold unmarshal at h
  split at h
  · cases h
  · split at h
    · cases h
    · rename_i seen out decoded
      split at h
      · rename_i passed
        cases h
        obtain ⟨ms, object, -⟩ := decodeClosed_closed decoded
        exact ⟨(Bool.and_eq_true_iff.mp passed).2, ms, object⟩
      · cases h

theorem marshal_valid (h : f.marshal a = some raw) :
    f.valid a = true ∧ ∃ ms, f.members a = some ms ∧ raw = Text.bytes (render (.obj ms)) := by
  unfold marshal at h
  split at h
  · rename_i valid
    obtain ⟨ms, written, rfl⟩ := Option.map_eq_some_iff.mp h
    exact ⟨valid, ms, written, rfl⟩
  · cases h

theorem Lawful.marshal_fits (law : f.Lawful) (h : f.marshal a = some raw)
    {n : Nat} (limit : f.limit = some n) : raw.length ≤ n := by
  obtain ⟨valid, ms, written, rfl⟩ := marshal_valid h
  rw [Text.length_bytes, size_render]
  exact law.fits a ms valid written n limit

theorem Lawful.marshal_inj (law : f.Lawful) {b : α} (ha : f.marshal a = some raw)
    (hb : f.marshal b = some raw) : a = b := by
  obtain ⟨first, written, read⟩ := law.unmarshal_marshal (marshal_valid ha).1
  obtain ⟨second, written', read'⟩ := law.unmarshal_marshal (marshal_valid hb).1
  cases written.symm.trans ha
  cases written'.symm.trans hb
  exact Option.some.inj (read.symm.trans read')

theorem Lawful.roundTrips (law : f.Lawful) : f.RoundTrips := by
  refine ⟨fun a valid => law.unmarshal_marshal valid, fun raw a h => unmarshal_closed h, ?_⟩
  intro raw a h
  exact law.unmarshal_marshal (unmarshal_closed h).1

end ClosedFormat

end Formats

end Wire

open Wire

namespace WireFields

variable {α : Type}

def text (name : String) (get : α → Text) (set : Text → α → α) : ClosedField α :=
  ⟨RecordField.of name get set, (Codec.decode : Json → Option Text)⟩

/-- A text with a length in characters; a maximum of zero is none. -/
def readBounded (minimum maximum : Nat) : Json → Option Text
  | .str s => if s.length < minimum ∨ (0 < maximum ∧ maximum < s.length) then none else some s
  | _ => none

def bounded (name : String) (minimum maximum : Nat) (get : α → Text) (set : Text → α → α) : ClosedField α :=
  ⟨RecordField.omitEmpty name List.isEmpty get set, readBounded minimum maximum⟩

theorem carries_text (a : α) (name : String) (get : α → Text) (set : Text → α → α) :
    (text name get set).Carries a :=
  .inr ⟨.str (get a), rfl, rfl⟩

theorem carries_bounded {a : α} {name : String} {minimum maximum : Nat} {get : α → Text} {set : Text → α → α}
    (fits : get a ≠ [] → minimum ≤ (get a).length ∧ (0 < maximum → (get a).length ≤ maximum)) :
    (bounded name minimum maximum get set).Carries a := by
  by_cases empty : get a = []
  · left
    change (get a).isEmpty = true
    rw [empty]
    rfl
  · obtain ⟨low, high⟩ := fits empty
    have inside : ¬ ((get a).length < minimum ∨ (0 < maximum ∧ maximum < (get a).length)) := by
      rintro (short | ⟨limited, long⟩)
      · omega
      · have := high limited
        omega
    exact .inr ⟨.str (get a), rfl, if_neg inside⟩

end WireFields
