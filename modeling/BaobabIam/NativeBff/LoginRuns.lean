import BaobabIam.NativeBff.Login

/-! Browser logins over whole runs of any number of replicas. A row is put under a
random identifier, taken once, and the call that took it is the only one that may
ask for its tokens. Tokens that a call obtained end in a committed session or in
a revocation. -/
namespace NativeBff.Login

open Interleaving

variable {v : Vault} {T T' : Trace (system v)} {e : Entry (system v)} {L : Log ports} {i : Nat} {k : Key}

section Events

def cookieKey : Call → Option Key
  | .callback _ r => r.transaction.bind hashID
  | .start .. => none

def Asks (e : Entry (system v)) : Prop := ∃ g answer, e.finish = e.start ++ [⟨.tokenEndpoint g, answer⟩]

def Revokes (tokens : HumanAuth.Response) (e : Entry (system v)) : Prop :=
  ∃ answer, e.finish = e.start ++ [⟨.revoke tokens, answer⟩]

def Exchanges (k : Key) (e : Entry (system v)) : Prop := cookieKey e.call = some k ∧ Asks e

def StoresFor (k : Key) (e : Entry (system v)) : Prop :=
  cookieKey e.call = some k ∧ e.after.sessions ≠ e.before.sessions

def Live (k : Key) (s : Store) : Prop := (s.transactions k).isSome = true

def Begins (k : Key) (e : Entry (system v)) : Prop := ¬ Live k e.before ∧ Live k e.after

def Burns (k : Key) (e : Entry (system v)) : Prop := Live k e.before ∧ ¬ Live k e.after

def Taken (T : Trace (system v)) (i : Nat) (id : Text) (t : Transaction) : Prop :=
  ∃ b ∈ T, b.thread = i ∧ ∃ k row, hashID id = some k ∧ b.before.transactions k = some row ∧
    b.after.transactions k = none ∧ v.txn.disclose id row.sealed = some t

def Asked (T : Trace (system v)) (i : Nat) (c : Call) : Prop :=
  ∃ a ∈ T, a.thread = i ∧ a.call = c ∧ Asks a

def Inserts (e : Entry (system v)) (id : Text) (s : Session) : Prop :=
  ∃ k row, hashID id = some k ∧ e.before.sessions k = none ∧ v.sess.disclose id row.sealed = some s ∧
    e.after = e.before.setSession k row

/-- What the session says was answered to the call, for this transaction. -/
structure Vouched (h : Config) (r : Browser) (t : Transaction) (s : Session) (L : Log ports) : Prop where
  exchanged : ∃ answer, ⟨.tokenEndpoint (grant h (r.get "code") t), answer⟩ ∈ L ∧
    tokensOf answer = some s.tokens
  verified : ⟨.verifyIDToken (trimSlashes h.issuer) h.clientID s.tokens.idToken,
    some (s.subject, t.intent.nonce)⟩ ∈ L
  resolved : ⟨.resolveHuman s.issuer s.subject s.tokens.accessToken, some s.principalID⟩ ∈ L
  issuer : s.issuer = trimSlashes h.issuer

def tokenAnswer? : (Σ q : Query, q.Answer) → Option TokenAnswer
  | ⟨.tokenEndpoint _, answer⟩ => some answer
  | _ => none

def answers (L : Log ports) : List TokenAnswer := draws (I := ports) tokenAnswer? L

/-- A session with these tokens is committed, or they are revoked. -/
def Settled (T : Trace (system v)) (i : Nat) (tokens : HumanAuth.Response) : Prop :=
  (∃ e ∈ T, e.thread = i ∧ ∃ id s, Inserts e id s ∧ s.tokens = tokens) ∨ ∃ e ∈ T, e.thread = i ∧
  Revokes tokens e

end Events

section Steps

inductive Step (T : Trace (system v)) (e : Entry (system v)) : Prop
  | idle (same : e.after = e.before) (quiet : ¬ Asks e)
  | put (k : Key) (row : Row) (drawn : k ∈ draws (I := ports) idKey e.start)
      (first : ∀ a ∈ T, a.thread ≠ e.thread) (after : e.after = e.before.setTransaction k (some row))
      (quiet : ¬ Asks e)
  | take (k : Key) (after : e.after = e.before.setTransaction k none)
      (quiet : ¬ Asks e)
  | exchange (h : Config) (r : Browser) (id : Text) (t : Transaction) (call : e.call = .callback h r)
      (cookie : r.transaction = some id) (taken : Taken T e.thread id t) (same : e.after = e.before)
      (first : ∀ a ∈ T, a.thread = e.thread → ¬ Asks a)
  | store (h : Config) (r : Browser) (cookie : Text) (t : Transaction) (id : Text) (s : Session)
      (call : e.call = .callback h r) (named : r.transaction = some cookie) (taken : Taken T e.thread cookie t)
      (asked : Asked T e.thread e.call) (vouched : Vouched h r t s e.start) (inserts : Inserts e id s)
      (first : ∀ a ∈ T, a.thread = e.thread → a.after.sessions = a.before.sessions) (quiet : ¬ Asks e)

variable {a : Σ q : ports.Query, ports.Answer q} {id raw subject : Text} {t : Transaction} {status : Nat}
    {L' : Log ports} {rule : Rule ports} {s : Store} {take : Bool} {Q : Post (system v) Unit}
    {answer : TokenAnswer} {tokens : HumanAuth.Response}

theorem not_asks {rest : Log ports} (grown : e.finish = e.start ++ a :: rest)
    (other : tokenAnswer? a = none) : ¬ Asks e := by
  rintro ⟨g, answer, asked⟩
  rw [grown] at asked
  cases List.append_cancel_left asked
  cases other

/-- What a callback knows of its own transactions and of the answers it got. -/
structure Kept (i : Nat) (got : List TokenAnswer) (T : Trace (system v)) (L : Log ports) : Prop where
  sessions : Own i (fun e => e.after.sessions = e.before.sessions) T
  quiet : got = [] → Own i (fun e => ¬ Asks e) T
  answers : answers L = got

variable {got : List TokenAnswer}

theorem answers_other (other : tokenAnswer? a = none) (L : Log ports) :
    answers (L ++ [a]) = answers L := by
  unfold answers
  rw [draws_snoc, other, Option.toList_none, List.append_nil]

theorem Kept.ask (h : Kept i got T L) (other : tokenAnswer? a = none) :
    Kept i got T (L ++ [a]) :=
  ⟨h.sessions, h.quiet, (answers_other other L).trans h.answers⟩

theorem Kept.others (h : Kept i got T L) (others : Others i T T') : Kept i got T' L :=
  ⟨h.sessions.others others, fun none => (h.quiet none).others others, h.answers⟩

theorem Kept.snoc (h : Kept i got T L) (same : e.after.sessions = e.before.sessions) (quiet : ¬ Asks e) :
    Kept i got (T ++ [e]) L :=
  ⟨Own.snoc h.sessions same, fun none => Own.snoc (h.quiet none) quiet, h.answers⟩

theorem Taken.mono (h : Taken T i id t) (sub : T <+: T') : Taken T' i id t := by
  obtain ⟨b, hb, rest⟩ := h
  exact ⟨b, sub.subset hb, rest⟩

variable {c : Call} {α β : Type}

theorem wp_orStop_kept {K : Trace (system v) → Log ports → Prop} {w : Setting (system v)} {o : Option α}
    {f : α → Op β} {Q : Post (system v) β} (stops : Stops K Q) (kept : K T L)
    (h : ∀ a, o = some a → wp w (f a) T L Q) : wp w (orStop status o >>= f) T L Q := by
  apply wp_ofExcept_kept stops kept
  intro a found
  exact h a (elim_eq_ok found)

structure Stated (L L' : Log ports) : Prop where
  starts : ∃ o rest, L' = L ++ ⟨.statement, o⟩ :: rest
  answers : answers L' = answers L

theorem Stated.start (L : Log ports) (o : Admission.Outcome) : Stated L (L ++ [⟨.statement, o⟩]) where
  starts := ⟨o, [], rfl⟩
  answers := answers_other rfl L

theorem Stated.clock (h : Stated L L') (t : Int) : Stated L (L' ++ [⟨.databaseClock, t⟩]) where
  starts := by
    obtain ⟨o, rest, rfl⟩ := h.starts
    exact ⟨o, rest ++ [⟨.databaseClock, t⟩], by simp⟩
  answers := (answers_other rfl L').trans h.answers

/-- A read changes nothing; a take that returns a row has removed it. -/
structure Fetched (take : Bool) (k : Key) (s : Store) (r : Except Nat (Option Text × Store)) : Prop where
  after : committed s r = s ∨ committed s r = s.setTransaction k none
  row : ∀ sealed s', r = .ok (some sealed, s') → ∃ row, s.transactions k = some row ∧ row.sealed = sealed ∧
    (take = true → s' = s.setTransaction k none)

theorem wp_fetch :
    (fetch take status k).wp rule s L (fun r L' => Stated L L' ∧ Fetched take k s r) := by
  apply Tx.wp_ask_then
  intro outcome _
  apply Tx.wp_require_else
  · exact ⟨.start L outcome, .inl rfl, by rintro sealed s' ⟨⟩⟩
  intro _
  apply Tx.wp_ask_then
  intro clock _
  apply Tx.wp_read_then
  have stated := (Stated.start L outcome).clock clock
  cases found : (s.transactions k).filter (fun row => decide (clock < row.expiresAt)) with
  | none =>
    rw [Option.isSome_none, Bool.and_false]
    refine ⟨stated, .inl rfl, ?_⟩
    rintro sealed s' returned
    split at returned <;> cases returned
  | some row =>
    have there : s.transactions k = some row := (Option.filter_eq_some_iff.mp found).1
    rw [Option.isSome_some, Bool.and_true]
    cases take with
    | true =>
      refine ⟨stated, .inr rfl, ?_⟩
      intro sealed s' returned
      split at returned
      · cases returned
        exact ⟨row, there, rfl, fun _ => rfl⟩
      · cases returned
    | false =>
      refine ⟨stated, .inl rfl, ?_⟩
      intro sealed s' returned
      split at returned
      · cases returned
        refine ⟨row, there, rfl, ?_⟩
        rintro ⟨⟩
      · cases returned

theorem Kept.stated (h : Kept i got T L) (stated : Stated L L') : Kept i got T L' :=
  ⟨h.sessions, h.quiet, stated.answers.trans h.answers⟩

theorem Stated.not_asks (h : Stated e.start e.finish) : ¬ Asks e := by
  obtain ⟨o, rest, grown⟩ := h.starts
  exact Login.not_asks grown rfl

/-- A transaction that is read is not touched; one that is taken is gone. -/
theorem wp_getTx {Q : Post (system v) Transaction} (kept : Kept i got T L)
    (stops : Stops (Kept i got) Q)
    (done : ∀ T' L' t, Kept i got T' L' → T <+: T' → L <+: L' →
      (take = true → Taken T' i id t) → Q T' L' (.ok t)) :
    wp (safe Step i c) (getTx v take status id) T L Q := by
  apply wp_orStop_kept stops kept
  intro k known
  apply wp_then
  intro T' others
  apply Tx.wp_mono wp_fetch
  intro r L' fetched
  obtain ⟨stated, after, row⟩ := fetched
  have quiet : ¬ Asks ((safe Step i c).entry T' L L' r) := stated.not_asks
  have sessions : (committed (last T') r).sessions = (last T').sessions := by
    rcases after with same | dropped
    · rw [same]
    · rw [dropped]
      rfl
  have kept := ((kept.others others).snoc (e := (safe Step i c).entry T' L L' r) sessions quiet).stated stated
  constructor
  · rcases after with same | dropped
    · exact .idle same quiet
    · exact .take k dropped quiet
  apply (wp_ofExcept _).mpr
  cases r with
  | error e => exact stops _ _ _ kept
  | ok p =>
    obtain ⟨sealed, s'⟩ := p
    apply wp_orStop_kept stops kept
    intro text sealed
    subst sealed
    apply wp_orStop_kept stops kept
    intro t disclosed
    apply wp_question_then
    intro clock _
    have kept' := kept.ask (a := ⟨.processClock, clock⟩) rfl
    apply wp_require_kept stops kept'
    intro _
    obtain ⟨o, rest, grown⟩ := stated.starts
    apply done _ _ _ kept' (others.sub.trans (List.prefix_append _ _))
    · rw [grown]
      simp
    · intro taking
      obtain ⟨row, there, same, gone⟩ := row text s' rfl
      refine ⟨_, List.mem_concat_self, rfl, k, row, known, there, ?_, ?_⟩
      · rw [Setting.entry_after, committed_ok, gone taking]
        exact Function.update_self _ _ _
      · rw [same]
        exact disclosed

theorem stops_kept {Q : Post (system v) α} (h : Stops (fun _ L => answers L = got) Q) : Stops (Kept i got) Q :=
  fun T L e kept => h T L e kept.answers

variable {h : Config} {r : Browser} {t : Transaction} {cookie : Text}

/-- The one call of the token endpoint, by the call that has taken the transaction. -/
theorem wp_exchange {Q : Post (system v) HumanAuth.Response} (kept : Kept i [] T L)
    (call : c = .callback h r) (named : r.transaction = some cookie) (taken : Taken T i cookie t)
    (stops : ∀ got, (∀ a ∈ got, tokensOf a = none) → Stops (fun _ L => answers L = got) Q)
    (done : ∀ T' L' answer tokens, Kept i [answer] T' L' → T <+: T' → tokensOf answer = some tokens →
      ⟨.tokenEndpoint (grant h (r.get "code") t), answer⟩ ∈ L' → Asked T' i c →
      Q T' L' (.ok tokens)) :
    wp (safe Step i c) (exchange h status (r.get "code") t) T L Q := by
  apply wp_require_kept (stops_kept (stops [] (by simp))) kept
  intro _
  apply wp_then
  intro T' others answer _
  have kept := kept.others others
  have taken := taken.mono others.sub
  have asked : answers (L ++ [⟨.tokenEndpoint (grant h (r.get "code") t), answer⟩]) = [answer] := by
    unfold answers
    rw [draws_snoc]
    exact congrArg (· ++ [answer]) kept.answers
  have asks : Asks ((safe Step i c).entry T' L (L ++ [⟨.tokenEndpoint (grant h (r.get "code") t), answer⟩])
      (.ok (answer, last T') : Except Nat (TokenAnswer × Store))) := ⟨_, _, rfl⟩
  refine ⟨.exchange h r cookie t call named taken rfl (kept.quiet rfl), ?_⟩
  apply (wp_ofExcept _).mpr
  cases found : tokensOf answer with
  | none => exact stops [answer] (by simpa using found) _ _ _ asked
  | some tokens =>
    apply done _ _ answer tokens ⟨Own.snoc kept.sessions rfl, by simp, asked⟩
      (others.sub.trans (List.prefix_append _ _)) found
    · simp
    · exact ⟨_, List.mem_concat_self, rfl, rfl, asks⟩

theorem Vouched.mono {s : Session} (h' : Vouched h r t s L) (sub : L <+: L') : Vouched h r t s L' where
  exchanged := by
    obtain ⟨answer, member, got⟩ := h'.exchanged
    exact ⟨answer, sub.subset member, got⟩
  verified := sub.subset h'.verified
  resolved := sub.subset h'.resolved
  issuer := h'.issuer

structure Inserted (k : Key) (row : SessionRow) (s : Store) (r : Except Nat (Bool × Store)) : Prop where
  after : committed s r = s ∨
    s.sessions k = none ∧ committed s r = s.setSession k row
  acknowledged : ∀ s', r = .ok (true, s') → s.sessions k = none ∧
    s' = s.setSession k row

theorem wp_insertSession {row : SessionRow} :
    (insertSession status k row).wp rule s L (fun r L' => Stated L L' ∧ Inserted k row s r) := by
  apply Tx.wp_ask_then
  intro outcome _
  apply Tx.wp_read_then
  apply Tx.wp_require_else
  · exact ⟨.start L outcome, .inl rfl, by rintro s' ⟨⟩⟩
  intro free
  have none : s.sessions k = none := by
    simp only [Bool.and_eq_true, Bool.not_eq_true', Option.isSome_eq_false_iff, Option.isNone_iff_eq_none] at free
    exact free.2
  apply Tx.wp_write_then
  refine ⟨.start L outcome, .inr ⟨none, rfl⟩, ?_⟩
  intro s' returned
  simp only [Except.ok.injEq, Prod.mk.injEq] at returned
  exact ⟨none, returned.2.symm⟩

theorem wp_putSession {s : Session} (kept : Kept i got T L)
    (call : c = .callback h r) (named : r.transaction = some cookie) (taken : Taken T i cookie t)
    (asked : Asked T i c) (vouched : Vouched h r t s L)
    (stops : Stops (fun _ L => answers L = got) Q)
    (done : ∀ T' L', answers L' = got → (∃ e ∈ T', e.thread = i ∧ Inserts e id s) → Q T' L' (.ok ())) :
    wp (safe Step i c) (putSession v status id s) T L Q := by
  have stops' : Stops (Kept i got) Q := stops_kept stops
  apply wp_question_then
  intro clock _
  have kept := kept.ask (a := ⟨.processClock, clock⟩) rfl
  apply wp_require_kept stops' kept
  intro _
  apply wp_orStop_kept stops' kept
  intro k known
  apply wp_question_then
  intro nonce _
  have kept := kept.ask (a := ⟨.random .envelope, nonce⟩) rfl
  apply wp_orStop_kept stops' kept
  intro nonce _
  apply wp_orStop_kept stops' kept
  intro sealed enclosed
  apply wp_require_kept stops' kept
  intro _
  apply wp_then
  intro T' others
  have kept := kept.others others
  apply Tx.wp_mono wp_insertSession
  rintro result L' ⟨stated, inserted⟩
  have same : answers L' = got := stated.answers.trans kept.answers
  have quiet : ¬ Asks ((safe Step i c).entry T' _ L' result) := stated.not_asks
  have opens := v.sess.round_trip _ _ _ _ enclosed
  constructor
  · rcases inserted.after with unchanged | ⟨free, after⟩
    · exact .idle unchanged quiet
    · refine .store h r cookie t id s call named (taken.mono others.sub) ?_ (vouched.mono ?_)
        ⟨k, _, known, free, opens, after⟩ kept.sessions quiet
      · obtain ⟨a, ha, rest⟩ := asked
        exact ⟨a, others.mem ha, rest⟩
      · exact (List.prefix_append _ _).trans (List.prefix_append _ _)
  apply (wp_ofExcept _).mpr
  cases result with
  | error e => exact stops _ _ _ same
  | ok p =>
    obtain ⟨acknowledged, s'⟩ := p
    refine (wp_require _ _).mpr ⟨?_, fun _ => stops _ _ _ same⟩
    intro yes
    cases yes
    obtain ⟨free, after⟩ := inserted.acknowledged s' rfl
    exact done _ _ same ⟨_, List.mem_concat_self, rfl, k, _, known, free, opens, after⟩

theorem wp_verifyID {nonce : Text} {Q : Post (system v) Text} (kept : Kept i got T L)
    (stops : Stops (Kept i got) Q)
    (done : ∀ L' sub, Kept i got T L' → L <+: L' →
      ⟨.verifyIDToken (trimSlashes h.issuer) h.clientID raw, some (sub, nonce)⟩ ∈ L' → Q T L' (.ok sub)) :
    wp (safe Step i c) (verifyID h status raw nonce) T L Q := by
  apply wp_require_kept stops kept
  intro _
  apply wp_question_then
  intro verified _
  have kept := kept.ask (a := ⟨.verifyIDToken (trimSlashes h.issuer) h.clientID raw, verified⟩) rfl
  apply wp_orStop_kept stops kept
  intro pair found
  apply wp_require_kept stops kept
  intro holds
  simp only [Bool.and_eq_true, beq_iff_eq] at holds
  apply done _ _ kept (List.prefix_append _ _)
  rw [found, ← holds.2]
  exact List.mem_concat_self

theorem wp_verifyAccess (kept : Kept i got T L)
    (stops : Stops (Kept i got) Q) (done : ∀ L', Kept i got T L' → L <+: L' → Q T L' (.ok ())) :
    wp (safe Step i c) (verifyAccess h status raw subject) T L Q := by
  apply wp_require_kept stops kept
  intro _
  apply wp_question_then
  intro verified _
  have kept := kept.ask (a := ⟨.verifyAccessToken (trimSlashes h.issuer) h.accessAudience raw, verified⟩) rfl
  apply wp_orStop_kept stops kept
  intro token _
  apply wp_require_kept stops kept
  intro _
  apply wp_orStop_kept stops kept
  intro claims _
  apply (wp_require _ _).mpr
  exact ⟨fun _ => done _ kept (List.prefix_append _ _), fun _ => stops _ _ _ kept⟩

theorem wp_assured (kept : Kept i got T L)
    (stops : Stops (Kept i got) Q) (done : ∀ L', Kept i got T L' → L <+: L' → Q T L' (.ok ())) :
    wp (safe Step i c) (assured h status r subject) T L Q := by
  apply wp_orStop_kept stops kept
  intro cookie _
  apply wp_require_kept stops kept
  intro _
  apply wp_question_then
  intro current _
  have kept := kept.ask (a := ⟨.authenticator cookie, current⟩) rfl
  apply wp_orStop_kept stops kept
  intro pair _
  apply (wp_require _ _).mpr
  exact ⟨fun _ => done _ kept (List.prefix_append _ _), fun _ => stops _ _ _ kept⟩

theorem wp_randomValue {purpose : Purpose} {Q : Post (system v) Text} (kept : Kept i got T L)
    (stops : Stops (Kept i got) Q) (done : ∀ L' x, Kept i got T L' → L <+: L' → Q T L' (.ok x)) :
    wp (safe Step i c) (randomValue status purpose) T L Q := by
  apply wp_question_then
  intro value _
  have kept := kept.ask (a := ⟨.random purpose, value⟩) rfl
  apply (wp_ofExcept _).mpr
  cases value with
  | none => exact stops _ _ _ kept
  | some x => exact done _ _ kept (List.prefix_append _ _)

theorem wp_establish {sub : Text} {Q : Post (system v) Reply}
    (kept : Kept i [answer] T L) (call : c = .callback h r) (named : r.transaction = some cookie)
    (taken : Taken T i cookie t) (asked : Asked T i c) (got : tokensOf answer = some tokens)
    (member : ⟨.tokenEndpoint (grant h (r.get "code") t), answer⟩ ∈ L)
    (verified : ⟨.verifyIDToken (trimSlashes h.issuer) h.clientID tokens.idToken, some (sub, t.intent.nonce)⟩ ∈ L)
    (stops : Stops (fun _ L => answers L = [answer]) Q)
    (done : ∀ T' L' reply, answers L' = [answer] →
      (∃ e ∈ T', e.thread = i ∧ ∃ id s, Inserts e id s ∧ s.tokens = tokens) →
      Q T' L' (.ok reply)) :
    wp (safe Step i c) (establish v h tokens sub) T L Q := by
  have stops' : Stops (Kept i [answer]) Q := stops_kept stops
  apply wp_then
  apply wp_verifyAccess kept stops'.andThen
  intro L₁ kept grown
  apply wp_question_then
  intro principal _
  have kept := kept.ask (a := ⟨.resolveHuman (trimSlashes h.issuer) sub tokens.accessToken, principal⟩) rfl
  apply wp_orStop_kept stops' kept
  intro principal found
  apply wp_require_kept stops' kept
  intro _
  apply wp_then
  apply wp_randomValue kept stops'.andThen
  intro L₂ sessionID kept grown'
  apply wp_then
  apply wp_randomValue kept stops'.andThen
  intro L₃ csrf kept grown''
  apply wp_question_then
  intro now _
  have kept := kept.ask (a := ⟨.now, now⟩) rfl
  have earlier := (grown'.trans grown'').trans (List.prefix_append L₃ [⟨.now, now⟩])
  have first := (grown.trans (List.prefix_append _ _)).trans earlier
  apply wp_then
  apply wp_putSession kept call named taken asked _ stops.andThen
  · rintro T' L' same ⟨e, he, mine, inserts⟩
    exact done _ _ _ same ⟨e, he, mine, _, _, inserts, rfl⟩
  · refine ⟨⟨answer, first.subset member, got⟩, first.subset verified, earlier.subset ?_, rfl⟩
    rw [found]
    exact List.mem_concat_self

theorem wp_accept {Q : Post (system v) Reply}
    (kept : Kept i [answer] T L) (call : c = .callback h r) (named : r.transaction = some cookie)
    (taken : Taken T i cookie t) (asked : Asked T i c) (got : tokensOf answer = some tokens)
    (member : ⟨.tokenEndpoint (grant h (r.get "code") t), answer⟩ ∈ L)
    (stops : Stops (fun _ L => answers L = [answer]) Q)
    (done : ∀ T' L' reply, answers L' = [answer] →
      (∃ e ∈ T', e.thread = i ∧ ∃ id s, Inserts e id s ∧ s.tokens = tokens) →
      Q T' L' (.ok reply)) :
    wp (safe Step i c) (accept v h r t tokens) T L Q := by
  have stops' : Stops (Kept i [answer]) Q := stops_kept stops
  apply wp_then
  apply wp_verifyID kept stops'.andThen
  intro L₁ sub kept grown verified
  have rest : ∀ L', Kept i [answer] T L' → L₁ <+: L' →
      wp (safe Step i c) (establish v h tokens sub) T L' Q := by
    intro L' kept grown'
    exact wp_establish kept call named taken asked got (grown'.subset (grown.subset member)) (grown'.subset verified)
      stops done
  apply wp_when_then
  · intro _
    exact wp_assured kept stops'.andThen rest
  · intro _
    exact rest L₁ kept (List.prefix_refl _)

/-- What holds when a call ends: every token response it got is settled. -/
def post (_ : Call) (i : Nat) : Post (system v) Reply := fun T L _ =>
  ∀ answer ∈ answers L, ∀ tokens, tokensOf answer = some tokens → Settled T i tokens

theorem post_of_none {got : List TokenAnswer} (none : ∀ a ∈ got, tokensOf a = none) :
    Stops (fun _ L => answers L = got) (post c i : Post (system v) Reply) := by
  intro T L e same answer member tokens got
  rw [same] at member
  rw [none answer member] at got
  cases got

theorem callback_steps (kept : Kept i [] T L) : wp (safe Step i (.callback h r))
    (callback v h r) T L (post (.callback h r) i) := by
  have stops : Stops (Kept i []) (post (.callback h r) i : Post (system v) Reply) := stops_kept (post_of_none (by simp))
  apply wp_require_kept stops kept
  intro _
  apply wp_then
  apply wp_orStop_kept stops.andThen kept
  intro cookie named
  apply wp_then
  apply wp_getTx kept stops.andThen.andThen
  intro T' L' t kept _ _ _
  apply wp_question_then
  intro now _
  have kept := kept.ask (a := ⟨.now, now⟩) rfl
  apply wp_require_kept stops.andThen kept
  intro _
  apply wp_require_kept stops kept
  intro _
  apply wp_then
  apply wp_getTx kept stops.andThen
  intro T' L' t kept _ _ taken
  have taken := taken rfl
  apply wp_question_then
  intro now _
  have kept := kept.ask (a := ⟨.now, now⟩) rfl
  apply wp_require_kept stops kept
  intro _
  apply wp_then
  apply wp_exchange kept rfl named taken (fun got none => (post_of_none none).andThen)
  intro T' L' answer tokens kept grown got member asked
  apply wp_then
  apply (wp_attempt _).mpr
  apply wp_accept kept rfl named (taken.mono grown) asked got member
  · intro T'' L'' status same U others acknowledged _
    have revokes : Revokes tokens ((safe Step i (.callback h r)).entry U L''
        (L'' ++ [⟨.revoke tokens, acknowledged⟩])
        (.ok (acknowledged, last U) : Except Nat (Bool × Store))) := ⟨_, rfl⟩
    refine ⟨.idle rfl (not_asks rfl rfl), ?_⟩
    intro other member tokens' got'
    rw [answers_other rfl, same] at member
    rw [List.mem_singleton.mp member, got] at got'
    cases got'
    exact .inr ⟨_, List.mem_concat_self, rfl, revokes⟩
  · intro T'' L'' reply same stored other member tokens' got'
    rw [same] at member
    rw [List.mem_singleton.mp member, got] at got'
    cases got'
    exact .inl stored

theorem wp_insertTransaction {row : Row} :
    (insertTransaction status k row).wp rule s L (fun r L' => Stated L L' ∧ (committed s r = s ∨
      committed s r = s.setTransaction k (some row))) := by
  apply Tx.wp_ask_then
  intro outcome _
  apply Tx.wp_read_then
  apply Tx.wp_require_else
  · exact ⟨.start L outcome, .inl rfl⟩
  intro _
  apply Tx.wp_write_then
  exact ⟨.start L outcome, .inr rfl⟩

/-- A transaction is put under an identifier that its call has drawn, first of all. -/
theorem wp_putTransaction
    (kept : Kept i got T L) (clean : ∀ e ∈ T, e.thread ≠ i)
    (drawn : ∀ k, hashID id = some k → k ∈ draws (I := ports) idKey L) (stops : Stops (Kept i got) Q)
    (done : ∀ T' L', Kept i got T' L' → Q T' L' (.ok ())) :
    wp (safe Step i c) (putTransaction v status id t) T L Q := by
  apply wp_question_then
  intro clock _
  have kept := kept.ask (a := ⟨.processClock, clock⟩) rfl
  apply wp_require_kept stops kept
  intro _
  apply wp_orStop_kept stops kept
  intro k known
  apply wp_question_then
  intro nonce _
  have kept := kept.ask (a := ⟨.random .envelope, nonce⟩) rfl
  apply wp_orStop_kept stops kept
  intro nonce _
  apply wp_orStop_kept stops kept
  intro sealed _
  apply wp_then
  intro T' others
  apply Tx.wp_mono wp_insertTransaction
  rintro result L' ⟨stated, after⟩
  have quiet : ¬ Asks ((safe Step i c).entry T' _ L' result) := stated.not_asks
  have sessions : (committed (last T') result).sessions = (last T').sessions := by
    rcases after with same | put
    · rw [same]
    · rw [put]
      rfl
  have kept := ((kept.others others).snoc (e := (safe Step i c).entry T' _ L' result) sessions quiet).stated stated
  constructor
  · rcases after with same | put
    · exact .idle same quiet
    · refine .put k _ ?_ ?_ put quiet
      · exact draws_mono ((List.prefix_append _ _).trans (List.prefix_append _ _)) (drawn k known)
      · obtain ⟨D, rfl, foreign⟩ := others
        intro a ha
        rcases List.mem_append.mp ha with ha | ha
        · exact clean a ha
        · exact foreign a ha
  apply (wp_ofExcept _).mpr
  cases result with
  | error e => exact stops _ _ _ kept
  | ok p => exact (wp_require _ _).mpr ⟨fun _ => done _ _ kept, fun _ => stops _ _ _ kept⟩

theorem start_steps (clean : ∀ e ∈ T, e.thread ≠ i) :
    wp (safe Step i (.start h r)) (start v h r) T [] (post (.start h r) i) := by
  have stops : Stops (Kept i []) (post (.start h r) i : Post (system v) Reply) := stops_kept (post_of_none (by simp))
  have kept : Kept i [] T [] := ⟨.start clean, fun _ => .start clean, rfl⟩
  apply wp_require_kept stops kept
  intro _
  apply wp_question_then
  intro id _
  have kept := kept.ask (a := ⟨.random .transactionID, id⟩) rfl
  apply wp_question_then
  intro verifier _
  have kept := kept.ask (a := ⟨.random .verifier, verifier⟩) rfl
  apply wp_question_then
  intro state _
  have kept := kept.ask (a := ⟨.random .state, state⟩) rfl
  apply wp_question_then
  intro nonce _
  have kept := kept.ask (a := ⟨.random .nonce, nonce⟩) rfl
  apply wp_question_then
  intro csrf _
  have kept := kept.ask (a := ⟨.random .csrf, csrf⟩) rfl
  apply wp_orStop_kept stops kept
  rintro id rfl
  apply wp_orStop_kept stops kept
  intro verifier _
  apply wp_orStop_kept stops kept
  intro state _
  apply wp_orStop_kept stops kept
  intro nonce _
  apply wp_orStop_kept stops kept
  intro csrf _
  apply wp_require_kept stops kept
  intro _
  apply wp_question_then
  intro now _
  have kept := kept.ask (a := ⟨.now, now⟩) rfl
  apply wp_then
  apply wp_putTransaction kept clean _ stops.andThen
  · intro T' L' kept answer member
    rw [kept.answers] at member
    cases member
  · intro k known
    apply List.mem_filterMap.mpr
    exact ⟨⟨.random .transactionID, some id⟩, by simp, known⟩

theorem code_steps (i : Nat) (c : Call) (T : Trace (system v)) (clean : ∀ e ∈ T, e.thread ≠ i) :
    wp (safe Step i c) ((system v).code c) T [] (post c i) := by
  cases c with
  | start h r => exact start_steps clean
  | callback h r => exact callback_steps ⟨.start clean, fun _ => .start clean, rfl⟩

end Steps

section Once

theorem live_set_self {s : Store} (row : Option Row) : Live k (s.setTransaction k row) ↔ row.isSome = true := by
  simp [Live, Store.setTransaction]

theorem live_set_ne {s : Store} {k' : Key} (row : Option Row) (other : k ≠ k') :
    Live k (s.setTransaction k' row) ↔ Live k s := by
  simp [Live, Store.setTransaction, Function.update_of_ne other]

theorem Step.begins (h : Step T e) (begins : Begins k e) :
    k ∈ draws (I := ports) idKey e.start ∧ ∀ a ∈ T, a.thread ≠ e.thread := by
  obtain ⟨dead, live⟩ := begins
  cases h with
  | idle same quiet => exact absurd (same ▸ live) dead
  | put k' row drawn first after quiet =>
    by_cases same : k = k'
    · subst same
      exact ⟨drawn, first⟩
    · rw [after, live_set_ne _ same] at live
      exact absurd live dead
  | take k' after quiet =>
    by_cases same : k = k'
    · subst same
      rw [after, live_set_self] at live
      cases live
    · rw [after, live_set_ne _ same] at live
      exact absurd live dead
  | exchange h r id t call cookie taken same first => exact absurd (same ▸ live) dead
  | store h r cookie t id s call named taken asked vouched inserts first quiet =>
    obtain ⟨_, _, -, -, -, after⟩ := inserts
    rw [after] at live
    exact absurd live dead

theorem burning (k : Key) : Lifecycle (@Step v) (Live k) (Begins k) (Burns k) where
  start := by
    rintro ⟨⟩
  spends _ _ _ burns := burns
  appears _ e _ live := by
    by_cases before : Live k e.before
    · exact .inl before
    · exact .inr ⟨before, live⟩

theorem Taken.burns {id : Text} {t : Transaction} (h : Taken T i id t) (known : hashID id = some k) :
    ∃ b ∈ T, b.thread = i ∧ Burns k b := by
  obtain ⟨b, hb, mine, k', row, known', found, gone, -⟩ := h
  rw [known] at known'
  cases known'
  exact ⟨b, hb, mine, by rw [Live, found]; rfl, by rw [Live, gone]; decide⟩

theorem cookieKey_callback {h : Config} {r : Browser} {cookie : Text} {c : Call} (call : c = .callback h r)
    (named : r.transaction = some cookie) : cookieKey c = hashID cookie := by
  rw [call, cookieKey, named]
  rfl

/-- The token endpoint is called by a call that has taken the transaction, and once. -/
theorem Step.exchanges (h : Step T e) (exchanges : Exchanges k e) :
    (∃ a ∈ T, a.thread = e.thread ∧ Burns k a) ∧ ∀ a ∈ T, a.thread = e.thread → ¬ Exchanges k a := by
  obtain ⟨key, asks⟩ := exchanges
  cases h with
  | idle same quiet => exact absurd asks quiet
  | put k' row drawn first after quiet => exact absurd asks quiet
  | take k' after quiet => exact absurd asks quiet
  | exchange h r id t call cookie taken same first =>
    rw [cookieKey_callback call cookie] at key
    refine ⟨taken.burns key, ?_⟩
    rintro a ha mine ⟨-, again⟩
    exact first a ha mine again
  | store h r cookie t id s call named taken asked vouched inserts first quiet => exact absurd asks quiet

structure Sourced (T : Trace (system v)) (e : Entry (system v)) : Prop where
  origin : ∃ h r cookie t id s, e.call = .callback h r ∧ r.transaction = some cookie ∧
    Taken T e.thread cookie t ∧ Vouched h r t s e.start ∧ Inserts e id s

theorem Step.stores (h : Step T e) (changed : e.after.sessions ≠ e.before.sessions) :
    Sourced T e ∧ Asked T e.thread e.call ∧ ∀ a ∈ T, a.thread = e.thread →
      a.after.sessions = a.before.sessions := by
  cases h with
  | idle same quiet => exact absurd (by rw [same]) changed
  | put k' row drawn first after quiet => exact absurd (by rw [after]; rfl) changed
  | take k' after quiet => exact absurd (by rw [after]; rfl) changed
  | exchange h r id t call cookie taken same first => exact absurd (by rw [same]) changed
  | store h r cookie t id s call named taken asked vouched inserts first quiet =>
    exact ⟨⟨h, r, cookie, t, id, s, call, named, taken, vouched, inserts⟩, asked, first⟩

theorem stores_once (valid : Valid Step T) (once : AtMostOnce (Exchanges k) T) : AtMostOnce (StoresFor k) T := by
  apply once_after valid _ _ once
  · rintro T e step ⟨key, changed⟩
    obtain ⟨-, ⟨a, ha, mine, same, asks⟩, -⟩ := step.stores changed
    exact ⟨a, ha, mine, same ▸ key, asks⟩
  · rintro T e step ⟨-, changed⟩ a ha mine ⟨-, again⟩
    exact again ((step.stores changed).2.2 a ha mine)

theorem fresh_draws : FreshDraws (system v) (I := ports) idKey := by
  intro logs L q a admitted k drawn L' member
  have known : idKey ⟨q, a⟩ = some k := drawn
  simp only [system, fresh, known, List.all_eq_true] at admitted
  simpa using admitted L' member

def Ended {α : Type} : Op α → Prop
  | .ret _ | .fail _ => True
  | _ => False

/-- In every run of any number of requests on any replicas, with any answers: the
token endpoint is called at most once for a transaction, and at most one session is
stored for it; a session is stored for the subject of a verified ID token with the
transaction's nonce, with the principal that was resolved for it; and when a
callback has ended, every token response it obtained is in a session that it
committed, or was revoked by it. -/
theorem transactions_single_use (v : Vault) (schedule : List (Action (system v))) :
    (∀ k, AtMostOnce (Exchanges k) (exec (system v) schedule).trace ∧
      AtMostOnce (StoresFor k) (exec (system v) schedule).trace) ∧
    (∀ U e D, (exec (system v) schedule).trace = U ++ e :: D →
      e.after.sessions ≠ e.before.sessions → Sourced U e) ∧
    (∀ (i : Nat) (c : Call) (L : Log ports) (p : Op Reply),
      (exec (system v) schedule).threads[i]? = some ⟨c, L, p⟩ → Ended p →
      ∀ answer ∈ answers L, ∀ tokens, tokensOf answer = some tokens →
        Settled (exec (system v) schedule).trace i tokens) := by
  have sound : Sound Step post (exec _ schedule) := exec_sound code_steps schedule
  have valid := sound.valid
  have drawn : Drawn idKey (exec _ schedule) := exec_drawn fresh_draws schedule
  have exchanged : ∀ k, AtMostOnce (Exchanges k) (exec _ schedule).trace := by
    intro k
    have burnt : AtMostOnce (Burns k) (exec _ schedule).trace := by
      apply (burning k).once valid
      apply drawn.happens_once valid
      intro U e step begins
      obtain ⟨mine, first⟩ := step.begins begins
      exact ⟨mine, fun a ha same => absurd same (first a ha)⟩
    exact once_after valid (fun _ _ step asks => (step.exchanges asks).1) (fun _ _ step asks => (step.exchanges asks).2)
      burnt
  refine ⟨fun k => ⟨exchanged k, stores_once valid (exchanged k)⟩, ?_, ?_⟩
  · intro U e D cut changed
    have sub : U ++ [e] <+: (exec _ schedule).trace := ⟨D, by rw [cut]; simp⟩
    exact ((valid.restrict sub).snoc_inv.2.2.stores changed).1
  · intro i c L p found ended
    obtain ⟨U, others, guarantee⟩ := sound.calls i _ found
    have settled : post c i U L (.error 0) := by
      cases p with
      | ret a => exact guarantee
      | fail e => exact guarantee
      | ask q f => cases ended
      | atomic t f => cases ended
    intro answer member tokens got
    rcases settled answer member tokens got with ⟨e, he, stored⟩ | ⟨e, he, revoked⟩
    · exact .inl ⟨e, others.mem he, stored⟩
    · exact .inr ⟨e, others.mem he, revoked⟩

end Once

end NativeBff.Login
