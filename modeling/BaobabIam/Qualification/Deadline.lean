import BaobabIam.Base.Answers
import BaobabIam.Base.Instant

/-! The supervisor of a run's deadline. It writes its lease round after round until it
cannot, the deadline has passed or a signal arrives, and then destroys the two clients
of the run. The second client is left alone when the first one is not destroyed. -/
namespace Qualification.Deadline

open Interleaving

section Ports

def consumer : Text := "baobab-int03c-issuer-owner"
def validator : Text := "baobab-int03c-issuer-verifier"
def markerKey : Text := "int03c_run_id"

def names : List Text := [consumer, validator]

structure Native where
  runID : Text
  pid : Nat

structure Lease where
  schema : Text
  runID : Text
  deadline : Text
  heartbeat : Text
  pid : Nat
  qualified : Bool

structure Client where
  id : Text
  grants : List Text
  metadata : List (Text × Text)

inductive Method where
  | get | delete

inductive Body where
  /-- Not read to its end, or longer than 16384 bytes. -/
  | unbounded
  | malformed
  | client (c : Client)

inductive Reply where
  /-- The request cannot be built. -/
  | invalid
  | unreachable
  | response (status : Nat) (body : Body)

inductive Inspection where
  | present | absent | failed

inductive Wake where
  | signal | tick

inductive Query where
  | leaseDirectory (file : Text)
  | inspectLease (file : Text)
  | now
  | writeLease (file : Text) (lease : Lease)
  /-- A signal or the next tick, whichever comes first. -/
  | wait
  | request (method : Method) (name : Text)
  /-- The adapter's revocation of a workload. -/
  | revokeWorkload (name : Text)

abbrev Query.Answer : Query → Type
  | .leaseDirectory _ => Bool
  | .inspectLease _ => Inspection
  | .now => Time
  | .writeLease _ _ => Bool
  | .wait => Wake
  | .request _ _ => Reply
  | .revokeWorkload _ => Bool

abbrev ports : Interface := ⟨Query, Query.Answer⟩

abbrev Refusal := String

abbrev Op := Prog ports Unit Refusal

end Ports

section Clients

/-- What a request gives: the client, unless there is none, or nothing. -/
@[reducible] def Method.Result : Method → Type
  | .get => Option Client
  | .delete => Unit

def Method.read : (m : Method) → Reply → Except Refusal m.Result
  | _, .invalid => .error "admin request invalid"
  | _, .unreachable => .error "private issuer administration unreachable"
  | .delete, .response status _ =>
    if status = 404 || status = 204 || status = 200 then .ok () else .error "issuer deletion rejected"
  | .get, .response status body =>
    if status = 404 then .ok none
    else if status ≠ 200 then .error "issuer administrative read-back rejected"
    else
      match body with
      | .unbounded => .error "issuer read-back unbounded"
      | .malformed => .error "issuer read-back malformed"
      | .client c => .ok (some c)

def request (method : Method) (name : Text) : Op method.Result := do
  Prog.require (names.contains name) "unapproved client"
  let reply : Reply ← Prog.question (I := ports) (.request method name)
  Prog.ofExcept (method.read reply)

variable (n : Native)

def owned (name : Text) : Op (Option Client) := do
  match ← request .get name with
  | none => return none
  | some c =>
    Prog.require (c.id == name && (c.metadata.lookup markerKey).getD [] == n.runID)
      "issuer client not owned by this disposable run"
    return some c

def revoke (name : Text) : Op Unit := do
  match ← owned n name with
  -- absent is already deprovisioned
  | none => return ()
  | some _ =>
    let revoked : Bool ← Prog.question (I := ports) (.revokeWorkload name)
    Prog.require revoked "provider issuance revoke failed"
    let observed ← owned n name
    Prog.require (observed.any (fun c => c.grants.isEmpty)) "issuer continued granting workload after revoke"

def destroy (name : Text) : Op Unit := do
  match ← owned n name with
  | none => return ()
  | some _ =>
    revoke n name
    match ← owned n name with
    | none => return ()
    | some _ =>
      request .delete name
      match ← Prog.attempt (request .get name) with
      | .ok none => return ()
      | _ => Prog.fail "issuer trust destruction not independently observed"

/-- The clients in turn, up to the first that is not destroyed. -/
def destroyEach : List Text → Op Unit
  | [] => return ()
  | name :: rest => do
    match ← Prog.attempt (destroy n name) with
    | .error _ => Prog.fail "independent deadline cleanup requires recovery"
    | .ok _ => destroyEach rest

def destroyOwnedProofClients : Op Unit := destroyEach n [consumer, validator]

end Clients

section Supervisor

variable (n : Native) (file : Text)

inductive Progress where
  /-- Still in the loop after these rounds. -/
  | running
  | finished
  deriving DecidableEq

def superviseLoop (until_ : Time) (lease : Lease) : Nat → Op Progress
  | 0 => return .running
  | rounds + 1 => do
    let heartbeat : Time ← Prog.question (I := ports) .now
    let written : Bool ← Prog.question (I := ports)
      (.writeLease file { lease with heartbeat := heartbeat.utc.format })
    if !written then
      -- If watchdog can no longer evidence liveness, force cleanup.
      destroyOwnedProofClients n
      return .finished
    else
      let now : Time ← Prog.question (I := ports) .now
      if !now.before until_ then
        destroyOwnedProofClients n
        return .finished
      else
        match (← Prog.question (I := ports) .wait : Wake) with
        | .signal =>
          destroyOwnedProofClients n
          return .finished
        | .tick => superviseLoop until_ lease rounds

/-- What is checked before the loop; the deadline as a time. -/
def startable (parse : Text → Option Time) (deadline : Text) : Op Time := do
  let suitable : Bool ← Prog.question (I := ports) (.leaseDirectory file)
  Prog.require suitable "private 0700 supervised run directory required"
  let until_ ← Prog.ofExcept ((parse deadline).elim (.error "supervised run deadline not bounded") .ok)
  let first : Time ← Prog.question (I := ports) .now
  Prog.require (60 * 10 ^ 9 < until_.ns - first.ns) "supervised run deadline not bounded"
  let second : Time ← Prog.question (I := ports) .now
  Prog.require (until_.ns - second.ns ≤ 90 * 60 * 10 ^ 9) "supervised run deadline not bounded"
  match (← Prog.question (I := ports) (.inspectLease file) : Inspection) with
  | .present => Prog.fail "previous run requires independent reconciliation"
  | .failed => Prog.fail "supervisor lease inspection failed"
  | .absent => return until_

def superviseDeadline (parse : Text → Option Time) (deadline : Text) (rounds : Nat) : Op Progress := do
  let until_ ← startable file parse deadline
  superviseLoop n file until_
    { schema := "iam.int03c.deadline-supervisor.v1", runID := n.runID, deadline := deadline, heartbeat := [],
      pid := n.pid, qualified := false } rounds

end Supervisor

section Questions

def About (name : Text) : Query → Prop
  | .request _ other => other = name
  | .revokeWorkload other => other = name
  | _ => False

def Local : Query → Prop
  | .request _ _ => False
  | .revokeWorkload _ => False
  | _ => True

def Preliminary : Query → Prop
  | .leaseDirectory _ => True
  | .inspectLease _ => True
  | .now => True
  | _ => False

theorem preliminary_local {q : Query} (h : Preliminary q) : Local q := by
  cases q <;> first | exact trivial | exact h.elim

variable {n : Native} {file name : Text}

theorem asks_request (method : Method) : (request method name).Asks (About name) :=
  asks_then (asks_require _ _) (fun _ => asks_then (asks_question rfl) (fun _ => asks_ofExcept _))

theorem asks_owned : (owned n name).Asks (About name) := by
  apply asks_then (asks_request .get)
  intro found
  cases found with
  | none => exact asks_ret _
  | some c => exact asks_then (asks_require _ _) (fun _ => asks_ret _)

theorem asks_revoke : (revoke n name).Asks (About name) := by
  apply asks_then asks_owned
  intro found
  cases found with
  | none => exact asks_ret _
  | some c =>
    refine asks_then (asks_question rfl) (fun _ => asks_then (asks_require _ _) (fun _ => ?_))
    exact asks_then asks_owned (fun _ => asks_require _ _)

theorem asks_destroy : (destroy n name).Asks (About name) := by
  apply asks_then asks_owned
  intro found
  cases found with
  | none => exact asks_ret _
  | some c =>
    refine asks_then asks_revoke (fun _ => asks_then asks_owned (fun found => ?_))
    cases found with
    | none => exact asks_ret _
    | some c =>
      refine asks_then (asks_request .delete) (fun _ => asks_then (asks_attempt (asks_request .get)) (fun seen => ?_))
      rcases seen with _ | _ | _
      · exact asks_fail _
      · exact asks_ret _
      · exact asks_fail _

theorem asks_startable {parse : Text → Option Time} {deadline : Text} :
    (startable file parse deadline).Asks Preliminary := by
  refine asks_then (asks_question trivial) (fun _ => asks_then (asks_require _ _) (fun _ => ?_))
  refine asks_then (asks_ofExcept _) (fun until_ => asks_then (asks_question trivial) (fun _ => ?_))
  refine asks_then (asks_require _ _) (fun _ => asks_then (asks_question trivial) (fun _ => ?_))
  refine asks_then (asks_require _ _) (fun _ => asks_then (asks_question trivial) (fun seen => ?_))
  cases seen with
  | present => exact asks_fail _
  | failed => exact asks_fail _
  | absent => exact asks_ret _

end Questions

section Cleanup

variable {n : Native} {file name : Text} {L : Log ports}

/-- The provider was asked for the client, which begins its destruction. -/
def Attempted (name : Text) (L : Log ports) : Prop := ∃ reply, ⟨Query.request .get name, reply⟩ ∈ L

theorem not_attempted {other : Text} (about : ∀ x ∈ L, About name x.1) (different : other ≠ name) :
    ¬ Attempted other L := by
  rintro ⟨reply, member⟩
  exact different (about _ member)

theorem not_attempted_local (quiet : ∀ x ∈ L, Local x.1) : ¬ Attempted name L := by
  rintro ⟨reply, member⟩
  exact quiet _ member

variable {L' : Log ports} {r : Except Refusal Unit} {reply : Reply}

theorem attempted_append : Attempted name (L ++ L') ↔ Attempted name L ∨ Attempted name L' := by
  simp only [Attempted, List.mem_append, exists_or]

theorem destroy_begins (approved : names.contains name = true)
    (ended : (destroy n name).Answered () L r ()) :
    ∃ reply rest, L = ⟨Query.request .get name, reply⟩ :: rest := by
  obtain ⟨_, L₂, x, ⟨⟩, rfl, looked, -⟩ := answered_bind.mp ended
  obtain ⟨L₁, L₃, y, ⟨⟩, rfl, requested, -⟩ := answered_bind.mp looked
  rw [request, answered_require_then, if_pos approved, answered_question_then] at requested
  obtain ⟨reply, rest, rfl, -⟩ := requested
  exact ⟨reply, _, rfl⟩

theorem destroy_attempts (approved : names.contains name = true)
    (ended : (destroy n name).Answered () L r ()) : Attempted name L := by
  obtain ⟨reply, rest, rfl⟩ := destroy_begins approved ended
  exact ⟨reply, List.mem_cons_self⟩

/-- One client after the other, the second only when the first was destroyed. -/
theorem cleanup_cases (ended : (destroyOwnedProofClients n).Answered () L r ()) :
    ∃ L₁ L₂ first, L = L₁ ++ L₂ ∧ (destroy n consumer).Answered () L₁ first () ∧
      match first with
      | .error _ => L₂ = [] ∧ r ≠ .ok ()
      | .ok _ => ∃ second, (destroy n validator).Answered () L₂ second () ∧ (r = .ok () → second = .ok ()) := by
  obtain ⟨L₁, L₂, x, ⟨⟩, rfl, tried, rest⟩ := answered_bind.mp ended
  obtain ⟨first, rfl, destroyed⟩ := answered_attempt.mp tried
  refine ⟨L₁, L₂, first, rfl, destroyed, ?_⟩
  cases first with
  | error e =>
    obtain ⟨rfl, rfl, -⟩ := rest
    exact ⟨rfl, nofun⟩
  | ok _ =>
    obtain ⟨L₂, L₃, y, ⟨⟩, rfl, tried, tail⟩ := answered_bind.mp rest
    obtain ⟨second, rfl, destroyed⟩ := answered_attempt.mp tried
    cases second with
    | error e =>
      obtain ⟨rfl, rfl, -⟩ := tail
      rw [List.append_nil]
      exact ⟨_, destroyed, nofun⟩
    | ok _ =>
      obtain ⟨rfl, rfl, -⟩ := tail
      rw [List.append_nil]
      exact ⟨_, destroyed, fun _ => rfl⟩

end Cleanup

section Runs

variable {n : Native} {file : Text} {L : Log ports} {r : Except Refusal Progress}

/-- The log ends with a cleanup that decides the result; nothing before it is for the provider. -/
def EndsInCleanup (n : Native) (L : Log ports) (r : Except Refusal Progress) : Prop :=
  ∃ L₀ L' r', L = L₀ ++ L' ∧ (∀ x ∈ L₀, Local x.1) ∧
    (destroyOwnedProofClients n).Answered () L' r' () ∧
    (r = .ok .finished → r' = .ok ())

theorem EndsInCleanup.after (before : Log ports) (quiet : ∀ x ∈ before, Local x.1) (h : EndsInCleanup n L r) :
    EndsInCleanup n (before ++ L) r := by
  obtain ⟨L₀, L', r', rfl, local_, cleanup, result⟩ := h
  refine ⟨before ++ L₀, L', r', (List.append_assoc _ _ _).symm, ?_, cleanup, result⟩
  intro x member
  rcases List.mem_append.mp member with member | member
  · exact quiet x member
  · exact local_ x member

theorem cleanup_ends (ended : (destroyOwnedProofClients n >>= fun _ =>
    (return .finished : Op Progress)).Answered () L r ()) :
    EndsInCleanup n L r := by
  obtain ⟨L', rest, r', ⟨⟩, rfl, cleanup, tail⟩ := answered_bind.mp ended
  refine ⟨[], L', r', ?_, by simp, cleanup, ?_⟩
  · cases r' with
    | ok _ => rw [tail.1]; simp
    | error e => rw [tail.1]; simp
  · intro finished
    cases r' with
    | ok _ => rfl
    | error e =>
      rw [tail.2.1] at finished
      cases finished

theorem loop_ends (until_ : Time) (lease : Lease) (rounds : Nat)
    (ended : (superviseLoop n file until_ lease rounds).Answered () L r ())
    (out : r ≠ .ok .running) : EndsInCleanup n L r := by
  induction rounds generalizing L with
  | zero =>
    obtain ⟨-, same, -⟩ := ended
    exact absurd same out
  | succ rounds ih =>
    obtain ⟨heartbeat, _, rfl, beaten⟩ := answered_question_then.mp ended
    obtain ⟨written, _, rfl, stored⟩ := answered_question_then.mp beaten
    apply EndsInCleanup.after [_] (by simp [Local])
    apply EndsInCleanup.after [_] (by simp [Local])
    cases written with
    | false => exact cleanup_ends stored
    | true =>
      obtain ⟨now, _, rfl, looked⟩ := answered_question_then.mp stored
      apply EndsInCleanup.after [_] (by simp [Local])
      cases due : now.before until_ with
      | false =>
        rw [due] at looked
        exact cleanup_ends looked
      | true =>
        rw [due] at looked
        obtain ⟨wake, _, rfl, woken⟩ := answered_question_then.mp looked
        apply EndsInCleanup.after [_] (by simp [Local])
        cases wake with
        | signal => exact cleanup_ends woken
        | tick => exact ih woken

def ReachedLoop (L : Log ports) : Prop := ∃ file lease written, ⟨Query.writeLease file lease, written⟩ ∈ L

theorem supervise_ends {parse : Text → Option Time} {deadline : Text} {rounds : Nat}
    (ended : (superviseDeadline n file parse deadline rounds).Answered () L r ()) (out : r ≠ .ok .running)
    (reached : ReachedLoop L) : EndsInCleanup n L r := by
  obtain ⟨L₁, L₂, x, ⟨⟩, rfl, start, rest⟩ := answered_bind.mp ended
  have preliminary := asks_startable _ _ _ _ start
  cases x with
  | error e =>
    obtain ⟨file, lease, written, member⟩ := reached
    rw [rest.1, List.append_nil] at member
    exact (preliminary _ member).elim
  | ok until_ =>
    apply EndsInCleanup.after _ _ (loop_ends until_ _ rounds rest out)
    exact fun y member => preliminary_local (preliminary y member)

def FirstDestroyed (n : Native) (L : Log ports) : Prop :=
  ∃ L₀ L₁ L₂, L = L₀ ++ (L₁ ++ L₂) ∧ (∀ x ∈ L₀, Local x.1) ∧
    (destroy n consumer).Answered () L₁ (.ok ()) ()

def BothDestroyed (n : Native) (L : Log ports) : Prop :=
  ∃ L₀ L₁ L₂, L = L₀ ++ (L₁ ++ L₂) ∧ (∀ x ∈ L₀, Local x.1) ∧
    (destroy n consumer).Answered () L₁ (.ok ()) () ∧
    (destroy n validator).Answered () L₂ (.ok ()) ()

theorem local_split {A A' B B' : Log ports} {x x' : Σ q : Query, q.Answer} (same : A ++ x :: B = A' ++ x' :: B')
    (quiet : ∀ y ∈ A, Local y.1) (quiet' : ∀ y ∈ A', Local y.1) (loud : ¬ Local x.1) (loud' : ¬ Local x'.1) :
    x :: B = x' :: B' := by
  induction A generalizing A' with
  | nil =>
    cases A' with
    | nil => exact same
    | cons y A' =>
      cases same
      exact absurd (quiet' _ List.mem_cons_self) loud
  | cons y A ih =>
    cases A' with
    | nil =>
      cases same
      exact absurd (quiet _ List.mem_cons_self) loud'
    | cons z A' =>
      obtain ⟨-, tail⟩ := List.cons.inj same
      exact ih tail (fun y hy => quiet y (List.mem_cons_of_mem _ hy)) (fun y hy => quiet' y (List.mem_cons_of_mem _ hy))

/-- The cleanup that a log ends with has the outcome of the first client fixed. -/
theorem first_fixed {L₀ L₁ L₂ : Log ports} {first : Except Refusal Unit} (quiet : ∀ x ∈ L₀, Local x.1)
    (destroyed : (destroy n consumer).Answered () L₁ first ()) :
    FirstDestroyed n (L₀ ++ (L₁ ++ L₂)) ↔ first = .ok () := by
  constructor
  · rintro ⟨L₀', L₁', L₂', same, quiet', destroyed'⟩
    obtain ⟨reply, rest, rfl⟩ := destroy_begins rfl destroyed
    obtain ⟨reply', rest', rfl⟩ := destroy_begins rfl destroyed'
    have tail := local_split same quiet quiet' (fun h => h) (fun h => h)
    exact (destroyed.unique destroyed' tail).2
  · rintro rfl
    exact ⟨L₀, L₁, L₂, rfl, quiet, destroyed⟩

/-- A supervisor that returns from its loop has tried the first client, and the second
exactly when the first was destroyed; it reports success only when both were. -/
theorem both_attempted_iff (n : Native) (file : Text) (parse : Text → Option Time) (deadline : Text) (rounds : Nat)
    (L : Log ports) (r : Except Refusal Progress)
    (ended : (superviseDeadline n file parse deadline rounds).Answered () L r ())
    (out : r ≠ .ok .running) (reached : ReachedLoop L) :
    (Attempted consumer L ∧ Attempted validator L ↔ FirstDestroyed n L) ∧ Attempted consumer L ∧
    (r = .ok .finished → BothDestroyed n L) := by
  obtain ⟨L₀, L', r', rfl, quiet, cleanup, result⟩ := supervise_ends ended out reached
  obtain ⟨L₁, L₂, first, rfl, destroyed, rest⟩ := cleanup_cases cleanup
  have tried : Attempted consumer (L₀ ++ (L₁ ++ L₂)) :=
    attempted_append.mpr (.inr (attempted_append.mpr (.inl (destroy_attempts rfl destroyed))))
  have other : ¬ Attempted validator L₁ := not_attempted (asks_destroy _ _ _ _ destroyed) (by decide)
  have parts : Attempted validator (L₀ ++ (L₁ ++ L₂)) ↔ Attempted validator L₀ ∨
      Attempted validator L₁ ∨ Attempted validator L₂ :=
    attempted_append.trans (or_congr_right attempted_append)
  rw [first_fixed quiet destroyed, parts]
  refine ⟨?_, tried, ?_⟩
  · cases first with
    | ok _ =>
      obtain ⟨second, destroyed', -⟩ := rest
      exact iff_of_true ⟨tried, .inr (.inr (destroy_attempts rfl destroyed'))⟩ rfl
    | error e =>
      obtain ⟨rfl, -⟩ := rest
      refine iff_of_false ?_ nofun
      rintro ⟨-, before | during | ⟨reply, nothing⟩⟩
      · exact not_attempted_local quiet before
      · exact other during
      · cases nothing
  · intro finished
    cases first with
    | ok _ =>
      obtain ⟨second, destroyed', success⟩ := rest
      rw [success (result finished)] at destroyed'
      exact ⟨L₀, L₁, L₂, rfl, quiet, destroyed, destroyed'⟩
    | error e => exact absurd (result finished) rest.2

def sampleRun : Native := ⟨"0123456789abcdef0123456789abcdef", 7⟩

/-- A signal ends the first round of the loop. -/
def signalled : Log ports :=
  [⟨.leaseDirectory "lease", true⟩, ⟨.now, ⟨0, 0⟩⟩, ⟨.now, ⟨0, 0⟩⟩,
    ⟨.inspectLease "lease", .absent⟩, ⟨.now, ⟨0, 0⟩⟩,
    ⟨.writeLease "lease" ⟨"iam.int03c.deadline-supervisor.v1", sampleRun.runID, "deadline",
      (Time.mk 0 0).format, 7, false⟩, true⟩, ⟨.now, ⟨0, 0⟩⟩, ⟨.wait, .signal⟩]

theorem signalled_reaches (replies : Log ports) : ReachedLoop (signalled ++ replies) :=
  ⟨_, _, _, List.mem_append_left _ (.tail _ (.tail _ (.tail _ (.tail _ (.tail _ (.head _))))))⟩

/-- The first client cannot be read after a signal: the second one is never tried. -/
theorem second_not_attempted : ∃ L r,
    (superviseDeadline sampleRun "lease" (fun _ => some ⟨10 ^ 12, 0⟩) "deadline" 1).Answered () L r () ∧
    r ≠ .ok .running ∧ ReachedLoop L ∧ ¬ Attempted validator L := by
  refine ⟨signalled ++ [⟨.request .get consumer, .unreachable⟩],
    .error "independent deadline cleanup requires recovery", ?_, nofun, signalled_reaches _, ?_⟩
  · exact ⟨_, _, rfl, _, _, rfl, _, _, rfl, _, _, rfl, _, _, rfl, _, _, rfl, _, _, rfl, _, _, rfl, _, _, rfl,
      rfl, rfl, rfl⟩
  · have others : ∀ x ∈ signalled, Local x.1 := by simp [signalled, Local]
    rw [attempted_append]
    rintro (before | ⟨reply, during⟩)
    · exact not_attempted_local others before
    · have name := congrArg Sigma.fst (List.mem_singleton.mp during)
      exact absurd (Query.request.inj name).2 (by decide)

/-- Neither client is there: both are looked for, and the run succeeds. -/
theorem absent_clients_attempted : ∃ L,
    (Attempted consumer L ∧ Attempted validator L ↔ FirstDestroyed sampleRun L) ∧ Attempted consumer L ∧
    ((.ok .finished : Except Refusal Progress) = .ok .finished → BothDestroyed sampleRun L) := by
  have run : (superviseDeadline sampleRun "lease" (fun _ => some ⟨10 ^ 12, 0⟩) "deadline" 1).Answered ()
      (signalled ++ [⟨.request .get consumer, .response 404 .malformed⟩,
        ⟨.request .get validator, .response 404 .malformed⟩]) (.ok .finished) () :=
    ⟨_, _, rfl, _, _, rfl, _, _, rfl, _, _, rfl, _, _, rfl, _, _, rfl, _, _, rfl, _, _, rfl, _, _, rfl, _, _, rfl,
      rfl, rfl, rfl⟩
  exact ⟨_, both_attempted_iff sampleRun "lease" (fun _ => some ⟨10 ^ 12, 0⟩) "deadline" 1 _ _ run nofun
    (signalled_reaches _)⟩

end Runs

end Qualification.Deadline
