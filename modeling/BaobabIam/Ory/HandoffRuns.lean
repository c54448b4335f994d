import BaobabIam.Ory.Handoff

/-! Challenges over whole runs of any number of replicas. The ledger's key of a
challenge is set once and stays; the acceptance is sent by the call that set it,
after its checks. A call that fails before has touched nothing, so the challenge
can still be accepted. -/
namespace Ory.Handoff

open Interleaving

variable {lib : Library} {T T' : Trace (system lib)} {e : Entry (system lib)} {L L' : Log ports} {i : Nat}
  {c : Call lib}

section Events

def Call.scheme (c : Call lib) : Text := c.replica.handoff.issuer.scheme

def Call.host (c : Call lib) : Text := c.replica.handoff.issuer.host

def Call.key (c : Call lib) : Text := challengeKey c.scheme c.host c.kind c.id

def Puts (kind : Kind) (id : Text) (e : Entry (system lib)) : Prop :=
  ∃ hydra body answer, e.finish = e.start ++ [⟨.accept hydra kind id body, answer⟩]

/-- The acceptance of this challenge is sent by a replica for this issuer. -/
def Sends (scheme host : Text) (kind : Kind) (id : Text) (e : Entry (system lib)) : Prop :=
  Call.scheme e.call = scheme ∧ Call.host e.call = host ∧ Puts kind id e

def Fences (e : Entry (system lib)) : Prop := e.before e.call.key = false ∧ e.after e.call.key = true

/-- The session was read twice with equal results, and then the route was confirmed. -/
def Checked (c : Call lib) (L : Log ports) : Prop :=
  ∃ A B D s current, L = A ++ ⟨.whoami c.replica.handoff.kratos c.credential, .ok s⟩ :: B ++
      ⟨.whoami c.replica.handoff.kratos c.credential, .ok current⟩ :: D ∧
    sameNativeSession current s = true ∧ (c.replica.handoff.authority = true → ⟨.capability, true⟩ ∈ D)

def Refusal.early : Refusal → Bool
  | .fence | .acceptance _ | .redirect => false
  | _ => true

def Clean (i : Nat) (T : Trace (system lib)) : Prop := ∀ e ∈ T, e.thread ≠ i

end Events

section Steps

inductive Step (T : Trace (system lib)) (e : Entry (system lib)) : Prop
  | idle (same : e.after = e.before) (quiet : ∀ kind id, ¬ Puts kind id e)
  | fence (free : e.before e.call.key = false) (after : e.after = Function.update e.before e.call.key true)
      (checked : Checked e.call e.start) (quiet : ∀ kind id, ¬ Puts kind id e)
  | send (same : e.after = e.before) (puts : Puts e.call.kind e.call.id e) (checked : Checked e.call e.start)
      (fenced : ∃ a ∈ T, a.thread = e.thread ∧ a.call = e.call ∧ Fences a)
      (first : ∀ a ∈ T, a.thread = e.thread → ∀ kind id, ¬ Puts kind id a)

def post (_ : Call lib) (i : Nat) : Post (system lib) Text := fun T _ r =>
  ∀ refusal, r = .error refusal → refusal.early = true → Clean i T

def Late {α : Type} (Q : Post (system lib) α) : Prop := ∀ T L refusal, refusal.early = false →
    Q T L (.error refusal)

variable {v : Setting (system lib)} {β : Type} {Q : Post (system lib) β} {kind : Kind} {id : Text}
    {h : NativeHumanHandoff}

theorem Late.andThen {α : Type} {f : α → Op β} (late : Late Q) :
    Late (andThen v f Q) :=
  fun T L refusal isLate => late T L refusal isLate

theorem wp_require_late {f : Unit → Op β} {b : Bool}
    {refusal : Refusal} (late : Late Q) (isLate : refusal.early = false) (h : b = true → wp v (f ()) T L Q) :
    wp v (Prog.require b refusal >>= f) T L Q :=
  wp_then ((wp_require b refusal).mpr ⟨h, fun _ => late _ _ _ isLate⟩)

theorem post_late : Late (post c i) := by
  rintro T L refusal late _ ⟨⟩ early
  rw [late] at early
  cases early

theorem post_stops : Stops (fun T _ => Clean i T) (post c i) := by
  rintro T L refusal clean _ ⟨⟩ _
  exact clean

theorem puts_unique {kind' : Kind} {id' : Text} (h : Puts kind id e) (h' : Puts kind' id' e) :
    kind = kind' ∧ id = id' := by
  obtain ⟨hydra, body, answer, grown⟩ := h
  obtain ⟨hydra', body', answer', grown'⟩ := h'
  rw [grown] at grown'
  cases List.append_cancel_left grown'
  exact ⟨rfl, rfl⟩

theorem not_puts {cancelled : Bool} {rest : Log ports}
    (grown : e.finish = e.start ++ ⟨.cancelled, cancelled⟩ :: rest)
    (kind : Kind) (id : Text) : ¬ Puts kind id e := by
  rintro ⟨hydra, body, answer, sent⟩
  rw [grown] at sent
  cases List.append_cancel_left sent

theorem Checked.grow (h : Checked c L) (D : Log ports) : Checked c (L ++ D) := by
  obtain ⟨A, B, D', s, current, rfl, same, routed⟩ := h
  exact ⟨A, B, D' ++ D, s, current, by simp, same, fun governed => List.mem_append_left _ (routed governed)⟩

structure Consumed (key : Text) (s : Ledger) (L : Log ports) (r : Except Refusal (Bool × Ledger)) (L' : Log ports) :
    Prop where
  starts : ∃ cancelled rest, L' = L ++ ⟨.cancelled, cancelled⟩ :: rest
  fails : ∀ refusal, r = .error refusal → refusal = .fence
  sets : ∀ acknowledged s', r = .ok (acknowledged, s') → s key = false ∧ s' = Function.update s key true

theorem wp_consume {rule : Rule ports} {key : Text} {s : Ledger} :
    (consume key).wp rule s L (fun r L' => Consumed key s L r L') := by
  have failed : ∀ cancelled rest, Consumed key s L (.error .fence) (L ++ ⟨.cancelled, cancelled⟩ :: rest) := by
    intro cancelled rest
    refine ⟨⟨cancelled, rest, rfl⟩, ?_, by rintro _ _ ⟨⟩⟩
    rintro _ ⟨⟩
    rfl
  apply Tx.wp_ask_then
  intro cancelled _
  apply Tx.wp_require_else (failed cancelled [])
  intro _
  apply Tx.wp_ask_then
  intro outcome _
  rw [List.append_assoc]
  apply Tx.wp_read_then
  apply Tx.wp_require_else (failed cancelled [⟨.ledger, outcome⟩])
  intro accepted
  simp only [Bool.and_eq_true, Bool.not_eq_true'] at accepted
  apply Tx.wp_write_then
  refine ⟨⟨cancelled, _, rfl⟩, by rintro _ ⟨⟩, ?_⟩
  rintro _ _ ⟨⟩
  exact ⟨accepted.2, rfl⟩

theorem wp_complete (clean : Clean i T) (checked : Checked c L) (body : Body) :
    wp (safe Step i c) (complete c.replica.handoff c.kind c.id body) T L (post c i) := by
  apply wp_then
  apply wp_question_then
  intro cancelled _
  have checked' := checked.grow [⟨.cancelled, cancelled⟩]
  have late : Late (post c i) := post_late
  apply wp_require_late late.andThen rfl
  intro _
  apply wp_require_late late.andThen rfl
  intro _
  apply wp_then
  intro T₁ others
  have clean₁ : Clean i T₁ := by
    obtain ⟨D, rfl, foreign⟩ := others
    intro a ha
    rcases List.mem_append.mp ha with ha | ha
    · exact clean a ha
    · exact foreign a ha
  apply Tx.wp_mono wp_consume
  intro r L₁ consumed
  obtain ⟨was, rest, grown⟩ := consumed.starts
  have checked₁ : Checked c L₁ := by
    rw [grown]
    exact checked'.grow _
  cases r with
  | error refusal =>
    refine ⟨.idle rfl (not_puts grown), ?_⟩
    rw [consumed.fails refusal rfl]
    exact late.andThen.andThen _ _ _ rfl
  | ok p =>
    obtain ⟨acknowledged, s'⟩ := p
    obtain ⟨free, after⟩ := consumed.sets acknowledged s' rfl
    refine ⟨.fence free after checked' (not_puts grown), ?_⟩
    apply (wp_require _ _).mpr
    refine ⟨fun _ => ?_, fun _ => late.andThen _ _ _ rfl⟩
    apply wp_then
    intro T₂ others₂ answer _
    constructor
    · refine .send rfl ⟨_, body, answer, rfl⟩ checked₁ ⟨_,
        others₂.mem List.mem_concat_self, rfl, rfl, free, ?_⟩ ?_
      · change s' (Call.key c) = true
        rw [after]
        exact Function.update_self _ _ _
      · obtain ⟨D, rfl, foreign⟩ := others₂
        intro a ha mine
        rcases List.mem_append.mp ha with ha | ha
        · rcases List.mem_append.mp ha with ha | ha
          · exact absurd mine (clean₁ a ha)
          · rw [List.mem_singleton.mp ha]
            exact not_puts grown
        · exact absurd mine (foreign a ha)
    · apply wp_then
      apply (wp_ofExcept _).mpr
      cases answer with
      | error failure => exact late.andThen _ _ _ rfl
      | ok redirect =>
        apply wp_require_late late rfl
        rintro _ _ ⟨⟩

theorem wp_session {credential : Credential}
    {Q : Post (system lib) NativeSession} (stops : Stops (fun T _ => Clean i T) Q) (clean : Clean i T)
    (read : ∀ s now later, Q T (L ++ ⟨.whoami h.kratos credential, .ok s⟩ ::
      [⟨.now, now⟩, ⟨.now, later⟩]) (.ok s)) :
    wp v (session h credential) T L Q := by
  apply wp_require_kept stops clean
  intro _
  apply wp_question_then
  intro answer _
  apply wp_ofExcept_kept stops clean
  intro s found
  rw [mapError_eq_ok found]
  apply wp_question_then
  intro now _
  apply wp_question_then
  intro later _
  apply wp_require_kept stops clean
  intro _
  rw [List.append_assoc, List.append_assoc]
  exact read s now later

theorem wp_challenge
    {intent : HumanAuth.Request} {Q : Post (system lib) (Challenge × List Text)}
    (stops : Stops (fun T _ => Clean i T) Q) (clean : Clean i T) (found : ∀ p L, Q T L (.ok p)) :
    wp v (challenge lib h kind id intent) T L Q := by
  apply wp_ofExcept_kept stops clean
  intro audience _
  apply wp_require_kept stops clean
  intro _
  apply wp_question_then
  intro answer _
  apply wp_ofExcept_kept stops clean
  intro doc _
  apply wp_ofExcept_kept stops clean
  intro _ _
  exact found _ _

theorem code_steps (i : Nat) (c : Call lib) (T : Trace (system lib)) (clean : Clean i T) :
    wp (safe Step i c) (Call.code lib c) T [] (post c i) := by
  have stops : Stops (fun T _ => Clean i T) (post c i) := post_stops
  -- the route is asked for where it has to be, and what follows sees the answer
  have routed : ∀ {L : Log ports} {f : Unit → Op Text},
      (∀ D : Log ports, (c.replica.handoff.authority = true → ⟨.capability, true⟩ ∈ D) →
        wp (safe Step i c) (f ()) T (L ++ D) (post c i)) →
      wp (safe Step i c) (Prog.when c.replica.handoff.authority checkCapability >>= f) T L (post c i) := by
    intro L f next
    apply wp_when_then
    · intro governed
      apply wp_question_then
      intro allowed _
      apply (wp_require _ _).mpr
      refine ⟨?_, fun _ => stops.andThen _ _ _ clean⟩
      rintro rfl
      exact next [⟨.capability, true⟩] (fun _ => List.mem_singleton.mpr rfl)
    · intro plain
      have here := next [] (fun governed => absurd governed (by simp [plain]))
      rwa [List.append_nil] at here
  apply routed
  intro _ _
  apply wp_require_kept stops clean
  intro _
  apply wp_question_then
  intro cancelled _
  apply wp_require_kept stops clean
  intro _
  apply wp_then
  apply wp_challenge stops.andThen clean
  rintro ⟨doc, audience⟩ L₁
  apply wp_then
  apply wp_session stops.andThen clean
  intro s now later
  apply wp_require_kept stops clean
  intro _
  apply wp_ofExcept_kept stops clean
  intro body _
  apply wp_then
  apply (wp_attempt _).mpr
  apply wp_session
  · intro T L refusal clean
    apply wp_require_kept stops clean
    rintro ⟨⟩
  · exact clean
  intro current now' later'
  apply wp_require_kept stops clean
  intro same
  apply routed
  intro D confirmed
  apply wp_complete clean
  exact ⟨L₁, [⟨.now, now⟩, ⟨.now, later⟩], [⟨.now, now'⟩, ⟨.now, later'⟩] ++ D,
    s, current, by simp, same, fun governed => List.mem_append_right _ (confirmed governed)⟩

end Steps

section Runs

theorem Step.sends (h : Step T e) {kind : Kind} {id : Text} (puts : Puts kind id e) :
    Call.kind e.call = kind ∧ Call.id e.call = id ∧ Checked e.call e.start ∧
      (∃ a ∈ T, a.thread = e.thread ∧ a.call = e.call ∧ Fences a) ∧
      ∀ a ∈ T, a.thread = e.thread → ∀ kind id, ¬ Puts kind id a := by
  cases h with
  | idle same quiet => exact absurd puts (quiet kind id)
  | fence free after checked quiet => exact absurd puts (quiet kind id)
  | send same here checked fenced first =>
    obtain ⟨rfl, rfl⟩ := puts_unique here puts
    exact ⟨rfl, rfl, checked, fenced, first⟩

theorem Step.stays (h : Step T e) {key : Text} (set : e.before key = true) : e.after key = true := by
  cases h with
  | idle same quiet => rwa [same]
  | send same puts checked fenced first => rwa [same]
  | fence free after checked quiet =>
    rw [after]
    by_cases here : key = Call.key e.call
    · rw [here]
      exact Function.update_self _ _ _
    · rwa [Function.update_of_ne here]

theorem Step.consumes (h : Step T e) {key : Text} (free : e.before key ≠ true) (set : e.after key = true) :
    Call.key e.call = key := by
  cases h with
  | idle same quiet => exact absurd (same ▸ set) free
  | send same puts checked fenced first => exact absurd (same ▸ set) free
  | fence was after checked quiet =>
    by_contra other
    rw [after, Function.update_of_ne (Ne.symm other)] at set
    exact free set

theorem run_sound (schedule : List (Action (system lib))) : Sound Step post (exec _ schedule) :=
  exec_sound code_steps schedule

theorem sends_once (schedule : List (Action (system lib))) (scheme host : Text) (kind : Kind) (id : Text) :
    AtMostOnce (Sends scheme host kind id) (exec _ schedule).trace := by
  have valid := (run_sound schedule).valid
  have once : AtMostOnce (fun e => Fences e ∧ Call.key e.call = challengeKey scheme host kind id)
      (exec _ schedule).trace := by
    apply @once_marked _ _ _ _ _ _ (fun s : Ledger => s (challengeKey scheme host kind id) = true) _ valid
    · rintro T e - ⟨⟨free, set⟩, same⟩
      rw [same] at free set
      exact ⟨by simp [free], set⟩
    · intro T e step set
      exact step.stays set
  refine once_after valid ?_ ?_ once
  · rintro T e step ⟨rfl, rfl, puts⟩
    obtain ⟨rfl, rfl, -, ⟨a, ha, mine, same, fences⟩, -⟩ := step.sends puts
    exact ⟨a, ha, mine, fences, by rw [same]; rfl⟩
  · rintro T e step ⟨-, -, puts⟩ a ha mine ⟨-, -, earlier⟩
    exact (step.sends puts).2.2.2.2 a ha mine kind id earlier

/-- A key that is consumed was consumed by a call for it, which did not fail early. -/
theorem consumed_by {schedule : List (Action (system lib))} {key : Text}
    (set : (exec _ schedule).store key = true) :
    ∃ t ∈ (exec _ schedule).threads, Call.key t.call = key ∧
      ∀ refusal, t.prog = .fail refusal → refusal.early = false := by
  have sound := run_sound schedule
  rw [sound.store] at set
  have start : ¬ (last ([] : Trace (system lib))) key = true := by
    intro set
    cases set
  obtain ⟨U, e, D, split, -, -, step, free, now⟩ := sound.valid.crossing (P := fun s : Ledger => s key = true)
    List.nil_prefix start set
  have he : e ∈ (exec _ schedule).trace := by
    rw [split]
    simp
  obtain ⟨t, found, same, -, -⟩ := exec_entries schedule e he
  refine ⟨t, List.mem_of_getElem? found, by rw [same]; exact step.consumes free now, ?_⟩
  intro refusal failed
  obtain ⟨T, others, met⟩ := sound.calls e.thread t found
  rw [failed] at met
  by_contra early
  have clean := met refusal rfl (by simpa using early)
  obtain ⟨D', eq, foreign⟩ := others
  rw [eq] at he
  rcases List.mem_append.mp he with he | he
  · exact clean e he rfl
  · exact foreign e he rfl

theorem keyText_inj {scheme host id id' : Text} {kind kind' : Kind}
    (h : keyText scheme host kind id = keyText scheme host kind' id') : kind = kind' ∧ id = id' := by
  have h := List.append_cancel_left h
  have h := (List.cons.inj h).2
  cases kind <;> cases kind' <;> first | exact ⟨rfl, (List.cons.inj (List.append_cancel_left h)).2⟩ | cases h

theorem canonicalKey_hex (t : Text) : canonicalKey (Sha256.hex t) = true := by
  have digit : ∀ d : Fin 16, (Text.isDigit (Text.digitChar d) ||
      'a' ≤ Text.digitChar d && Text.digitChar d ≤ 'f') = true := by
    decide
  unfold canonicalKey Sha256.hex
  rw [Text.padded_length]
  simp only [beq_self_eq_true, Bool.true_and, List.all_eq_true]
  intro x hx
  obtain ⟨d, -, rfl⟩ := Text.padded_mem (by decide) (by decide) hx
  exact digit d

end Runs

section Progress

/-- Answers under which every check of a call passes. -/
structure Passes (c : Call lib) (answers : (q : Query) → q.Answer) (audience : List Text) (doc : Challenge)
    (s : NativeSession) (body : Body) : Prop where
  running : answers .cancelled = false
  routed : c.replica.handoff.authority = true → answers .capability = true
  consented : (c.kind == .login || c.consented) = true
  granted : buyerConsent c.replica.handoff c.intent = .ok audience
  intent : supported c.id c.intent = true
  challenge : answers (.challenge c.replica.handoff.hydra c.kind c.id) = .ok doc
  confirmed : confirm lib c.replica.handoff c.id c.intent doc = .ok ()
  credential : c.credential.exact = true
  session : answers (.whoami c.replica.handoff.kratos c.credential) = .ok s
  current : s.current (answers .now) (answers .now) = true
  subject : subjectMatches c.kind doc s = true
  accepted : acceptance lib c.replica.handoff c.kind doc audience s = .ok body
  applied : answers .ledger = .applied

variable {answers : (q : Query) → q.Answer} {audience : List Text} {doc : Challenge} {s : NativeSession} {body : Body}

abbrev answered (answers : (q : Query) → q.Answer) (i : Nat) (c : Call lib) : Setting (system lib) :=
  alone (fun _ q a => a = answers q) i c

theorem pass_session {Q : Post (system lib) NativeSession} (passes : Passes c answers audience doc s body)
    (read : ∀ L, Q T L (.ok s)) :
    wp (answered answers i c) (session c.replica.handoff c.credential) T L Q := by
  apply wp_require_pass passes.credential
  apply wp_question_then
  rintro _ rfl
  rw [passes.session]
  apply wp_question_then
  rintro _ rfl
  apply wp_question_then
  rintro _ rfl
  apply wp_require_pass passes.current
  exact read _

theorem pass_checkCapability {β : Type} {f : Unit → Op β} {Q : Post (system lib) β}
    (passes : Passes c answers audience doc s body) (next : ∀ L, wp (answered answers i c) (f ()) T L Q) :
    wp (answered answers i c) (Prog.when c.replica.handoff.authority checkCapability >>= f) T L Q := by
  apply wp_when_then
  · intro governed
    apply wp_question_then
    rintro _ rfl
    rw [passes.routed governed]
    exact next _
  · intro _
    exact next _

theorem pass_consume {key : Text} {store : Ledger} (passes : Passes c answers audience doc s body)
    (free : store key = false) {Q : Except Refusal (Bool × Ledger) → Log ports → Prop}
    (done : ∀ L, Q (.ok (true, Function.update store key true)) L) :
    (consume key).wp (fun _ q a => a = answers q) store L Q := by
  apply Tx.wp_ask_then
  rintro _ rfl
  apply Tx.wp_require_pass (by rw [passes.running]; rfl)
  apply Tx.wp_ask_then
  rintro _ rfl
  apply Tx.wp_read_then
  apply Tx.wp_require_pass (by rw [passes.applied, free]; rfl)
  apply Tx.wp_write_then
  rw [passes.applied]
  exact done _

theorem pass_complete (passes : Passes c answers audience doc s body) (free : last T c.key = false) :
    wp (answered answers i c) (complete c.replica.handoff c.kind c.id body) T L
      (fun T' _ _ => ∃ e ∈ T', e.thread = i ∧ e.call = c ∧ Puts c.kind c.id e) := by
  apply wp_then
  apply wp_question_then
  rintro _ rfl
  apply wp_require_pass (by rw [passes.running]; rfl)
  apply wp_require_pass (by unfold challengeKey; exact canonicalKey_hex _)
  apply wp_then
  rintro T₁ rfl
  apply pass_consume passes free
  intro L₁
  refine ⟨trivial, ?_⟩
  apply wp_then
  rintro T₂ rfl answer _
  refine ⟨trivial, ?_⟩
  -- the acceptance is in the trace, whatever follows
  have sent : ∀ (T : Trace (system lib)) (entry : Entry (system lib)),
      entry.finish = entry.start ++ [⟨.accept c.replica.handoff.hydra c.kind c.id body, answer⟩] →
        entry.thread = i →
      entry.call = c → ∃ e ∈ T ++ [entry], e.thread = i ∧ e.call = c ∧ Puts c.kind c.id e := by
    intro T entry grown mine same
    exact ⟨entry, List.mem_concat_self, mine, same, _, body, answer, grown⟩
  apply wp_then
  apply (wp_ofExcept _).mpr
  cases answer with
  | error failure => exact sent _ _ rfl rfl rfl
  | ok redirect =>
    apply wp_then
    apply (wp_require _ _).mpr
    exact ⟨fun _ => sent _ _ rfl rfl rfl, fun _ => sent _ _ rfl rfl rfl⟩

theorem pass_code (passes : Passes c answers audience doc s body) (free : last T c.key = false) :
    wp (answered answers i c) (Call.code lib c) T []
      (fun T' _ _ => ∃ e ∈ T', e.thread = i ∧ e.call = c ∧ Puts c.kind c.id e) := by
  apply pass_checkCapability passes
  intro L₀
  apply wp_require_pass passes.consented
  apply wp_question_then
  rintro _ rfl
  apply wp_require_pass (by rw [passes.running]; rfl)
  apply wp_then
  apply wp_ofExcept_pass passes.granted
  apply wp_require_pass passes.intent
  apply wp_question_then
  rintro _ rfl
  apply wp_ofExcept_pass (by rw [passes.challenge]; rfl)
  apply wp_ofExcept_pass passes.confirmed
  apply wp_then
  apply pass_session passes
  intro L₁
  apply wp_require_pass passes.subject
  apply wp_ofExcept_pass passes.accepted
  apply wp_then
  apply (wp_attempt _).mpr
  apply pass_session passes
  intro L₂
  apply wp_require_pass
  · simp [unchanged, sameNativeSession, Time.equal]
  apply pass_checkCapability passes
  intro L₃
  exact pass_complete passes free

def SameChallenge (a b : Call lib) : Prop := a.scheme = b.scheme ∧ a.host = b.host ∧ a.kind = b.kind ∧ a.id = b.id

/-- A challenge for which every call so far failed early is accepted by the next call
whose checks pass. -/
theorem still_acceptable (schedule : List (Action (system lib))) (passes : Passes c answers audience doc s body)
    (issuer : ∀ t ∈ (exec _ schedule).threads, Call.scheme t.call = c.scheme ∧ Call.host t.call = c.host)
    (injective : ∀ t ∈ (exec _ schedule).threads, Call.key t.call = c.key →
      keyText (Call.scheme t.call) (Call.host t.call) (Call.kind t.call) (Call.id t.call) =
        keyText c.scheme c.host c.kind c.id)
    (failed : ∀ t ∈ (exec _ schedule).threads, SameChallenge t.call c →
      ∃ refusal, t.prog = .fail refusal ∧ refusal.early = true) :
    ∃ n, ∃ e ∈ (exec (system lib) (thenAlone schedule c n (fun _ q => answers q))).trace,
      e.thread = (exec _ schedule).threads.length ∧ e.call = c ∧ Puts c.kind c.id e := by
  have free : last (exec _ schedule).trace c.key = false := by
    rw [← exec_store]
    by_contra set
    obtain ⟨t, ht, same, late⟩ := consumed_by (Bool.eq_true_of_not_eq_false set)
    obtain ⟨scheme, host⟩ := issuer t ht
    have texts := injective t ht same
    rw [scheme, host] at texts
    obtain ⟨kind, id⟩ := keyText_inj texts
    obtain ⟨refusal, stopped, early⟩ := failed t ht ⟨scheme, host, kind, id⟩
    rw [late refusal stopped] at early
    cases early
  obtain ⟨n, -, -, -, -, sent⟩ := @solo_call _ _ _ _ (fun _ q a => a = answers q) (fun _ q => answers q)
    (fun _ _ _ => rfl) schedule (fun _ _ _ _ _ _ => rfl) c _ (pass_code passes free)
  exact ⟨n, sent⟩

/-- An acceptance is sent once for a challenge, by a call that read the session twice
and, when governed, confirmed the route; failing before costs nothing. -/
theorem challenges_accepted_once (lib : Library) :
    (∀ (schedule : List (Action (system lib))) scheme host kind id,
      AtMostOnce (Sends scheme host kind id) (exec (system lib) schedule).trace) ∧
    (∀ (schedule : List (Action (system lib))), ∀ e ∈ (exec (system lib) schedule).trace,
      ∀ kind id, Puts kind id e → Call.kind e.call = kind ∧ Call.id e.call = id ∧ Checked e.call e.start) ∧
    ∀ (schedule : List (Action (system lib))) (c : Call lib) answers audience doc s body,
      Passes c answers audience doc s body →
      (∀ t ∈ (exec (system lib) schedule).threads, Call.scheme t.call = c.scheme ∧ Call.host t.call = c.host) →
      (∀ t ∈ (exec (system lib) schedule).threads, Call.key t.call = c.key →
        keyText (Call.scheme t.call) (Call.host t.call) (Call.kind t.call) (Call.id t.call) =
          keyText c.scheme c.host c.kind c.id) →
      (∀ t ∈ (exec (system lib) schedule).threads, SameChallenge t.call c →
        ∃ refusal, t.prog = .fail refusal ∧ refusal.early = true) →
      ∃ n, ∃ e ∈ (exec (system lib) (thenAlone schedule c n (fun _ q => answers q))).trace,
        e.thread = (exec (system lib) schedule).threads.length ∧ e.call = c ∧ Puts c.kind c.id e := by
  refine ⟨sends_once, ?_, ?_⟩
  · intro schedule e he kind id puts
    obtain ⟨U, -, -, -, step⟩ := (run_sound schedule).valid.mem he
    obtain ⟨named, same, checked, -⟩ := step.sends puts
    exact ⟨named, same, checked⟩
  · intro schedule c answers audience doc s body passes issuer injective failed
    exact still_acceptable schedule passes issuer injective failed

def shopConfig : Config :=
  ⟨"https://kratos.example", "https://hydra.example/", "https://login.example/", none, none, false⟩

def shop : NativeHumanHandoff :=
  ⟨⟨"https", [], none, "kratos.example", [], [], false, []⟩,
    ⟨"https", [], none, "hydra.example", ['/'], [], false, []⟩,
    ⟨"https", [], none, "login.example", ['/'], [], false, []⟩, false, none, []⟩

def shopIntent : HumanAuth.Request :=
  ⟨"authorization_code", List.replicate 43 'c', "S256", "shop", "https://shop.example/cb",
    "openid", List.replicate 16 's', List.replicate 16 'n', []⟩

def shopLibrary : Library := ⟨fun _ => some (expected shopIntent), fun _ => false, fun _ t => t⟩

def shopChallenge : Challenge :=
  ⟨"challenge-1", [], [], "https://login.example/oauth2/auth?query", ["openid"], [], "shop"⟩

def shopSession : NativeSession :=
  ⟨"session", true, ⟨20, 0⟩, ⟨5, 0⟩, "aal1", ["password"], "person-1", "active"⟩

def shopAnswers : (q : Query) → q.Answer
  | .cancelled => false
  | .capability => true
  | .now => ⟨10, 0⟩
  | .ledger => .applied
  | .challenge .. => .ok shopChallenge
  | .whoami .. => .ok shopSession
  | .accept .. => .error .denied

def shopCall : Call shopLibrary :=
  ⟨⟨shop, false, shopConfig, by rfl⟩, .login, "challenge-1", ⟨"token", []⟩, shopIntent, false⟩

/-- The caller gives up before anything is sent. -/
def givenUp : List (Action (system shopLibrary)) :=
  [.begin shopCall, .step 0 (fun _ q => match q with | .cancelled => true | q => shopAnswers q)]

/-- A login that was given up is accepted in the next call, whose checks pass. -/
theorem given_up_login_accepted :
    ∃ n, ∃ e ∈ (exec _ (thenAlone givenUp shopCall n (fun _ q => shopAnswers q))).trace,
    e.thread = 1 ∧ e.call = shopCall ∧ Puts .login "challenge-1" e := by
  have passes : Passes shopCall shopAnswers [] shopChallenge shopSession (.login "person-1" "aal1" ["pwd"]) := by
    constructor <;> first | rfl | decide +kernel
  have stopped : ∃ L refusal, (exec _ givenUp).threads = [⟨shopCall, L, .fail refusal⟩] ∧
      refusal.early = true :=
    ⟨_, _, rfl, rfl⟩
  obtain ⟨L, refusal, threads, early⟩ := stopped
  have only : ∀ t ∈ (exec _ givenUp).threads, t = ⟨shopCall, L, .fail refusal⟩ := by
    rw [threads]
    exact fun t ht => List.mem_singleton.mp ht
  refine (challenges_accepted_once shopLibrary).2.2 givenUp shopCall shopAnswers _ _ _ _ passes ?_ ?_ ?_
  · intro t ht
    rw [only t ht]
    exact ⟨rfl, rfl⟩
  · intro t ht _
    rw [only t ht]
  · intro t ht _
    rw [only t ht]
    exact ⟨refusal, rfl, early⟩

end Progress

end Ory.Handoff
