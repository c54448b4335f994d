import BaobabIam.Migration.Bridge

/-! The in-process store. A call of it may fail before it has done anything; the
store itself refuses only records that do not pass the structural validation. -/
namespace Migration

open Interleaving

structure MemoryStore where
  byID : Text → Option Record
  keyed : ∀ id r, byID id = some r → r.migrationID = id

namespace MemoryStore

def empty : MemoryStore := ⟨fun _ => none, by simp⟩

def insert (s : MemoryStore) (r : Record) : MemoryStore where
  byID id := if id = r.migrationID then some r else s.byID id
  keyed id x found := by
    split at found
    · rename_i mine
      cases found
      exact mine.symm
    · exact s.keyed id x found

@[simp] theorem insert_self (s : MemoryStore) (r : Record) : (s.insert r).byID r.migrationID = some r := by
  simp [insert]

theorem insert_other (s : MemoryStore) (r : Record) {id : Text} (h : id ≠ r.migrationID) :
    (s.insert r).byID id = s.byID id := by simp [insert, h]

def fault : Body MemoryStore Unit := do
  let answer ← Tx.ask (I := ports) .memory
  match answer with
  | none => return ()
  | some e => .fail e

def get (id : Text) : Op MemoryStore Record :=
  transaction (do
    fault
    let found ← Tx.read (fun s : MemoryStore => s.byID id)
    match found with
    | none => .fail .notFound
    | some r => return r)

def put (r : Record) : Op MemoryStore Record := do
  Prog.ofExcept r.validateStructural
  transaction (do
    fault
    Tx.write (fun s : MemoryStore => s.insert r)
    return r)

def store : RecordStore MemoryStore := ⟨get, put⟩

end MemoryStore

end Migration
