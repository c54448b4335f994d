import BaobabIam.Migration.ServiceRuns

/-! When one worker provisions a row, which state is the row in while the provider is
called? `advanceTo` compares positions on the happy path, and a state off the path counts
as beyond its end: such a row is passed on to the provider as it is. Every other row is
in PROVISIONING at each provider call. -/
namespace Migration

open Interleaving

def offPath : MigrationState → Bool
  | .blocked | .failedRetryable | .failedManualReview | .rolledBack | .quarantined | .other _ => true
  | _ => false

def providerCall {S : Type} {sys : System ports S Failure} (e : Entry sys) : Bool :=
  (e.finish.drop e.start.length).any (fun x => provisions x.1)

section Calls

variable {S : Type} {store : RecordStore S} {sys : System ports S Failure} {e : Entry sys}

theorem not_providerCall (stored : StoreLog e.start e.finish) : providerCall e = false := by
  obtain ⟨D, eq, only⟩ := stored
  unfold providerCall
  rw [eq, List.drop_left, List.any_eq_false]
  intro x hx
  have asked := only x hx
  cases h : x.1 <;> rw [h] at asked <;> simp [provisions, storeQuery] at asked ⊢

theorem order_early {s : MigrationState} (early : ProvisionBridge.already s = false) (on : offPath s = false) :
    stateOrder s ≤ stateOrder .provisioning := by
  cases s <;> simp [ProvisionBridge.already, offPath, stateOrder] at early on ⊢

theorem order_provisioning {s : MigrationState} (h : stateOrder s = stateOrder .provisioning) : s = .provisioning := by
  cases s <;> simp [stateOrder] at h ⊢

theorem order_off {s : MigrationState} (off : offPath s = true) (next : MigrationState) :
    stateOrder next ≤ stateOrder s := by
  have top : stateOrder s = 100 := by cases s <;> simp [offPath, stateOrder] at off ⊢
  rw [top]
  cases next <;> simp [stateOrder]

end Calls

section Alone

variable {S : Type} {store : RecordStore S} (laws : Lawful store) {sys : System ports S Failure}
  {spec : Spec sys} {i : Nat} {c : sys.Call} {T T' : Trace sys} {id : Text}

theorem AtState.unique {s s' : MigrationState} (h : AtState laws T id s) (h' : AtState laws T id s') : s = s' := by
  obtain ⟨x, found, rfl⟩ := h
  obtain ⟨y, found', rfl⟩ := h'
  rw [Option.some.inj (found.symm.trans found')]

theorem Reads.alone {r : Record} (h : Reads laws (inOrder spec i c) T T' id r) :
    last T' = last T ∧ ∃ x, laws.row (last T) id = some x ∧ x.utc = r.utc := by
  obtain ⟨A, g, rfl, rfl, -, from_last, same, x, found, equal⟩ := h
  rw [from_last] at same found
  exact ⟨by rw [last_append, same], x, found, equal⟩

theorem Reads.state {r : Record} (h : Reads laws (inOrder spec i c) T T' id r) :
    AtState laws T id r.migrationState := by
  obtain ⟨-, x, found, equal⟩ := h.alone laws
  exact ⟨x, found, Record.utc_state equal⟩

theorem Advances.order {s next : MigrationState} (h : Advances laws (inOrder spec i c) T T' id next)
    (here : AtState laws T id s) :
    ∃ s', AtState laws T' id s' ∧ stateOrder s' = max (stateOrder s) (stateOrder next) := by
  obtain ⟨T₁, r, s', reads, -, there, order, -⟩ := h
  rw [AtState.unique laws here (reads.state laws)]
  exact ⟨s', there, order⟩

theorem Advances.unmoved {s next : MigrationState} (h : Advances laws (inOrder spec i c) T T' id next)
    (here : AtState laws T id s) (off : offPath s = true) : last T' = last T := by
  obtain ⟨T₁, r, s', reads, -, -, -, still⟩ := h
  rw [AtState.unique laws here (reads.state laws)] at off
  rw [still (order_off off next), (reads.alone laws).1]

/-- A row that was found on the path is in PROVISIONING when the provider is called. -/
theorem Advanced.provisioning {r' : Record} (h : Advanced laws (inOrder spec i c) T T' id r')
    (on : ∀ s, AtState laws T id s → offPath s = false) : AtState laws T' id .provisioning := by
  obtain ⟨T₁, r, T₂, T₃, T₄, reads, early, to₂, to₃, to₄, reads'⟩ := h
  have here := reads.state laws
  have here₁ : AtState laws T₁ id r.migrationState := by
    rw [AtState, (reads.alone laws).1]
    exact here
  obtain ⟨s₂, here₂, order₂⟩ := to₂.order laws here₁
  obtain ⟨s₃, here₃, order₃⟩ := to₃.order laws here₂
  obtain ⟨s₄, here₄, order₄⟩ := to₄.order laws here₃
  have first := order_early early (on _ here)
  have arrived : s₄ = .provisioning := by
    apply order_provisioning
    rw [order₄, order₃, order₂]
    simp only [stateOrder] at first ⊢
    omega
  rw [AtState, (reads'.alone laws).1]
  rw [arrived] at here₄
  exact here₄

/-- A row that was found off the path is handed to the provider as it was found. -/
theorem Advanced.unmoved {x r' : Record} (h : Advanced laws (inOrder spec i c) T T' id r')
    (found : laws.row (last T) id = some x) (off : offPath x.migrationState = true) : x.utc = r'.utc := by
  obtain ⟨T₁, r, T₂, T₃, T₄, reads, -, to₂, to₃, to₄, reads'⟩ := h
  have here : ∀ U : Trace sys, last U = last T → AtState laws U id x.migrationState :=
    fun U same => ⟨x, by rw [same]; exact found, rfl⟩
  have first := (reads.alone laws).1
  have second := (to₂.unmoved laws (here T₁ first) off).trans first
  have third := (to₃.unmoved laws (here T₂ second) off).trans second
  have fourth := (to₄.unmoved laws (here T₃ third) off).trans third
  obtain ⟨-, y, found', equal⟩ := reads'.alone laws
  rw [fourth, found] at found'
  rw [Option.some.inj found']
  exact equal

end Alone

section Runs

variable {S : Type} {store : RecordStore S} (laws : Lawful store) (policy : Policy) (init : S) (b : ProvisionBridge)
  (id : Text) (oracles : List (Oracle ports))

def FindsProvisioning (_ : Trace (service store policy init)) (e : Entry (service store policy init)) : Prop :=
  providerCall e = true → ∃ x, laws.row e.before id = some x ∧ x.migrationState = .provisioning

def provisionAlone (store : RecordStore S) : Config (service store policy init) :=
  exec (service store policy init) (inTurn [(.provision b id, oracles)])

def OnlyInProvisioning : Prop :=
  ∀ e ∈ (provisionAlone policy init b id oracles store).trace, providerCall e = true →
    ∃ x, laws.row e.before id = some x ∧ x.migrationState = .provisioning

def provisioner : Setting (service store policy init) :=
  inOrder (FindsProvisioning laws policy init id) 0 (.provision b id)

variable {policy init id} {x : Record}

/-- The row is read and nothing about it or the bridge keeps the provider from being called. -/
def Reached (x : Record) : Prop := (laws.hands x).isSome = true ∧ b.Callable x

theorem wp_provisioner (found : laws.row init id = some x)
    (h : offPath x.migrationState = false ∨ ¬ Reached laws b x) :
    wp (provisioner laws policy init b id) (b.provision store policy id) [] [] (fun _ _ _ => True) := by
  have grows : ∀ T T', (provisioner laws policy init b id).others T T' → T <+: T' := inOrder_grows _ _ _
  have stored : ∀ T s L L', StoreLog L L' →
      FindsProvisioning laws policy init id T (leaves (provisioner laws policy init b id) T s L L') := by
    intro T s L L' asked call
    rw [not_providerCall asked] at call
    cases call
  cases read : laws.hands x with
  | none =>
    apply wp_then
    apply laws.get_wp
    rintro T' L' rfl asked
    refine ⟨stored _ _ _ L' asked, fun _ => trivial, ?_⟩
    intro y r found' handed
    rw [Option.some.inj (found'.symm.trans found), read] at handed
    cases handed
  | some r =>
    apply wp_provision laws grows (fun T L L' asked => stored T _ L L' asked) b
    · intro T₁ r _ _
      constructor
      · exact fun next _ T₁ T' r r' n _ _ _ _ _ L L' s asked _ => stored T' s L L' asked
      · exact fun T₁ T' r target _ _ _ L L' s asked _ => stored T' s L L' asked
      · exact fun T' r code _ _ L L' s asked _ => stored T' s L L' asked
    · intro T' r' advanced callable T'' L' q a same call _
      cases same
      cases off : offPath x.migrationState with
      | false =>
        apply advanced.provisioning laws
        rintro _ ⟨y, found', rfl⟩
        rw [Option.some.inj (found'.symm.trans found)]
        exact off
      | true =>
        have equal := advanced.unmoved laws found off
        have callable : b.Callable x := (Record.utc_field b.Callable (fun _ => rfl) equal).mpr callable
        rcases h with on | refused
        · rw [on] at off
          cases off
        · exact absurd ⟨by rw [read]; rfl, callable⟩ refused
    · exact fun _ _ _ _ => trivial
    · exact fun _ _ _ _ _ _ _ => trivial

theorem only_in_provisioning (found : laws.row init id = some x)
    (h : offPath x.migrationState = false ∨ ¬ Reached laws b x) :
    OnlyInProvisioning laws policy init b id oracles := by
  have valid : Valid (FindsProvisioning laws policy init id) (provisionAlone policy init b id oracles store).trace := by
    refine (exec_inTurn ?_).1
    intro i c oracles' T this earlier
    cases i with
    | zero =>
      cases this
      have first : T = [] := List.eq_nil_iff_forall_not_mem.mpr (fun e he => absurd (earlier e he) (Nat.not_lt_zero _))
      rw [first]
      exact ⟨_, wp_provisioner laws b found h⟩
    | succ i => cases this
  intro e he
  obtain ⟨U, -, -, -, meets⟩ := valid.mem he
  exact meets

end Runs

section OffPath

/- A row off the path that is read is handed on to the provider. -/

variable {S : Type} {store : RecordStore S} {laws : Lawful store} {sys : System ports S Failure} {i : Nat}
  {c : sys.Call}
  {T : Trace sys} {L : Log ports} {b : ProvisionBridge} {x r : Record} {id email : Text} {time : Time}

/-- Surroundings without a failure, with these traits and this clock. -/
def serving (email : Text) (time : Time) : Oracle ports := fun L q =>
  match q with
  | .loadHumanTraits _ _ => .ok [("email".toList, .str email)]
  | .now => time
  | q => calm L q

def serves (email : Text) (time : Time) : Rule ports := fun L q a => a = serving email time L q

theorem serves_undisturbed : Undisturbed (serves email time) := fun _ => ⟨fun _ h => h, fun _ h => h⟩

def Called (laws : Lawful store) (id : Text) (x : Record) (T : Trace sys) : Prop :=
  ∃ e ∈ T, providerCall e = true ∧ laws.row e.before id = some x

theorem wp_called {α : Type} {rule : Rule ports} (h : Called laws id x T) (p : Op S α) :
    wp (alone rule i c) p T L (fun T' _ _ => Called laws id x T') := by
  obtain ⟨e, he, call⟩ := h
  exact wp_mono (wp_alone_grows p T L) (fun T' _ _ sub => ⟨e, sub.subset he, call⟩)

theorem wp_effect_called {β : Type} {rule : Rule ports} {q : Query} {f : q.Answer → Op S β}
    (found : laws.row (last T) id = some x) (call : provisions q = true) :
    wp (alone rule i c) (Prog.effect (I := ports) q >>= f) T L (fun T' _ _ => Called laws id x T') := by
  apply wp_then
  rintro U rfl a _
  have made : providerCall (⟨i, c, last U, last U, L, L ++ [⟨q, a⟩]⟩ : Entry sys) = true := by
    simp [providerCall, call]
  exact ⟨trivial, wp_called ⟨_, List.mem_concat_self, made, found⟩ _⟩

theorem wp_human_called (found : laws.row (last T) id = some x) (port : b.human = true) (source : b.humanTraits = true)
    (address : b.parseAddress email = some email ∧ 3 ≤ email.size ∧ email.size ≤ 320) :
    wp (alone (serves email time) i c) (b.provisionHuman r) T L (fun T' _ _ => Called laws id x T') := by
  apply wp_require_pass port
  apply wp_require_pass source
  apply wp_question_then
  rintro answer rfl
  apply wp_mapError_pass rfl
  apply wp_ofExcept_pass (show validateHumanTraits b.parseAddress [("email".toList, .str email)] = .ok () by
    have nameless : ([("email".toList, .str email)] : Table Wire.Json).lookup "name".toList = none := rfl
    apply firstFailure_ok.mpr
    rw [nameless]
    simp [jsonText, address])
  apply wp_ofExcept_pass (show (ProvisionBridge.humanSpec r [("email".toList, .str email)]).validate = .ok () from rfl)
  exact wp_effect_called found rfl

theorem wp_clientSecret_called (found : laws.row (last T) id = some x) (calls : b.CallsClientSecret r) :
    wp (alone (serves email time) i c) (b.provisionWorkloadClientSecret r r.source.subject) T L
      (fun T' _ _ => Called laws id x T') := by
  obtain ⟨port, scopes, valid⟩ := calls
  apply wp_require_pass port
  apply wp_require_pass (by rw [scopes]; rfl)
  apply wp_ofExcept_pass valid
  exact wp_effect_called found rfl

theorem wp_federated_called (found : laws.row (last T) id = some x) (calls : b.CallsFederated r) :
    wp (alone (serves email ⟨0, 0⟩) i c) (b.provisionFederatedWorkload r r.source.subject) T L
      (fun T' _ _ => Called laws id x T') := by
  obtain ⟨-, issuer, key, scopes, audiences, time, valid⟩ := calls
  apply wp_require_pass (decide_eq_true issuer)
  apply wp_require_pass (by rw [key]; rfl)
  apply wp_require_pass (by rw [scopes]; rfl)
  apply wp_require_pass (by rw [audiences]; rfl)
  apply wp_question_then
  rintro created rfl
  apply wp_question_then
  rintro checked rfl
  apply wp_ofExcept_pass (ProvisionBridge.validate_at_start valid)
  exact wp_effect_called found rfl

/-- The surroundings depend on the address alone: the clock may stand at its start. -/
theorem wp_target_called (laws : Lawful store) (sys : System ports S Failure) (id : Text) (x : Record)
    (callable : b.Callable r) : ∃ email, ∀ (i : Nat) (c : sys.Call) (T : Trace sys) L,
    laws.row (last T) id = some x →
    wp (alone (serves email ⟨0, 0⟩) i c) (b.provisionTarget r) T L (fun T' _ _ => Called laws id x T') := by
  have keep : ∀ {α β : Type} {email : Text} {i : Nat} {c : sys.Call} {T : Trace sys} {L} {p : Op S α}
      {f : α → Op S β}, wp (alone (serves email ⟨0, 0⟩) i c) p T L (fun T' _ _ => Called laws id x T') →
      wp (alone (serves email ⟨0, 0⟩) i c) (p >>= f) T L (fun T' _ _ => Called laws id x T') := by
    intro α β email i c T L p f h
    apply wp_then
    apply wp_mono h
    intro T' L' result called
    cases result with
    | ok a => exact wp_called called _
    | error e => exact called
  have human : b.CallsHuman → ∃ email, ∀ (i : Nat) (c : sys.Call) (T : Trace sys) L,
      laws.row (last T) id = some x → wp (alone (serves email ⟨0, 0⟩) i c) (do
        let binding ← b.provisionHuman r
        return (binding, WorkloadProfile.other [])) T L (fun T' _ _ => Called laws id x T') := by
    rintro ⟨port, source, email, address⟩
    exact ⟨email, fun i c T L found => keep (wp_human_called found port source address)⟩
  have workload : b.CallsWorkload r → ∃ email, ∀ (i : Nat) (c : sys.Call) (T : Trace sys) L,
      laws.row (last T) id = some x →
      wp (alone (serves email ⟨0, 0⟩) i c) (b.provisionWorkload r) T L (fun T' _ _ => Called laws id x T') := by
    rintro ⟨named, calls⟩
    refine ⟨[], fun i c T L found => ?_⟩
    apply wp_require_pass (decide_eq_true named)
    split
    · rename_i listed
      rw [if_pos listed] at calls
      exact keep (wp_clientSecret_called found calls)
    · rename_i listed
      rw [if_neg listed] at calls
      apply wp_require_pass (by rcases calls.1 with unset | chosen <;> simp [*])
      apply wp_require_pass calls.2.1
      exact keep (wp_federated_called found calls.2)
  unfold ProvisionBridge.Callable at callable
  unfold ProvisionBridge.provisionTarget
  cases identityClass : r.identityClass with
  | human | privilegedHuman | federatedHuman | testOrNonProd =>
    rw [identityClass] at callable
    exact human callable
  | workload | serviceIntegration =>
    rw [identityClass] at callable
    exact workload callable
  | _ =>
    rw [identityClass] at callable
    exact callable.elim

theorem wp_advanceTo_off {policy : Policy} {next : MigrationState} {Q : Post sys Unit}
    (found : laws.row (last T) id = some x) (read : laws.hands x = some r) (off : offPath r.migrationState = true)
    (h : ∀ T' L', last T' = last T → Q T' L' (.ok ())) :
    wp (alone (serves email time) i c) (ProvisionBridge.advanceTo store policy id next) T L Q := by
  apply wp_then
  apply laws.get_done serves_undisturbed found read
  intro L'
  change wp _ (if _ then _ else _) _ _ _
  rw [if_pos (by simp [order_off off next])]
  exact h _ L' (last_append ..)

variable {init : S}

theorem provision_called (policy : Policy) (found : laws.row init id = some x) (read : laws.hands x = some r)
    (off : offPath r.migrationState = true) (callable : b.Callable r) :
    ∃ email, wp (alone (serves email ⟨0, 0⟩) 0 (.provision b id) : Setting (service store policy init))
      (b.provision store policy id) [] [] (fun T _ _ => Called laws id x T) := by
  obtain ⟨email, target⟩ := wp_target_called laws (service store policy init) id x callable
  refine ⟨email, ?_⟩
  have orphan : r.identityClass ≠ .orphanCandidate := by
    intro same
    rw [ProvisionBridge.Callable, same] at callable
    exact callable
  have glass : r.identityClass ≠ .breakGlass := by
    intro same
    rw [ProvisionBridge.Callable, same] at callable
    exact callable
  have early : ProvisionBridge.already r.migrationState = false := by
    cases state : r.migrationState <;> rw [state] at off <;> first | rfl | cases off
  have start : laws.row (last ([] : Trace (service store policy init))) id = some x := found
  apply wp_then
  apply laws.get_done serves_undisturbed start read
  intro L₁
  apply wp_require_pass (decide_eq_true orphan)
  apply wp_require_pass (decide_eq_true glass)
  change wp _ (if _ then _ else _) _ _ _
  rw [if_neg (by simp [early])]
  apply wp_then
  apply wp_advanceTo_off found read off
  intro T₂ L₂ same₂
  apply wp_then
  apply wp_advanceTo_off (by rw [same₂]; exact found) read off
  intro T₃ L₃ same₃
  apply wp_then
  apply wp_advanceTo_off (by rw [same₃, same₂]; exact found) read off
  intro T₄ L₄ same₄
  have found₄ : laws.row (last T₄) id = some x := by
    rw [same₄, same₃, same₂]
    exact found
  apply wp_then
  apply laws.get_done serves_undisturbed found₄ read
  intro L₅
  apply wp_then
  apply (wp_attempt _).mpr
  apply wp_mono (target _ _ _ _ (by rw [last_append]; exact found₄))
  intro T' L' result called
  exact wp_called called _

theorem not_only_in_provisioning (policy : Policy) (found : laws.row init id = some x)
    (off : offPath x.migrationState = true)
    (reached : Reached laws b x) : ∃ oracles, ¬ OnlyInProvisioning laws policy init b id oracles := by
  obtain ⟨r, read⟩ := Option.isSome_iff_exists.mp reached.1
  have equal := laws.hands_utc read
  have callable : b.Callable r := (Record.utc_field b.Callable (fun _ => rfl) equal).mp reached.2
  obtain ⟨email, passes⟩ :=
    provision_called policy found read (by rw [← Record.utc_state equal]; exact off) callable
  have obeys : ∀ L q, AnsweredBy (serving email ⟨0, 0⟩) L →
      serves email ⟨0, 0⟩ L q (serving email ⟨0, 0⟩ L q) :=
    fun _ _ _ => rfl
  obtain ⟨n, L, result, -, -, e, he, call, before⟩ := solo_call obeys
    ([] : List (Action (service store policy init))) (fun _ _ _ _ _ _ => rfl) (.provision b id) _ passes
  refine ⟨List.replicate n (serving email ⟨0, 0⟩), fun only => ?_⟩
  have same : inTurn [((.provision b id : ServiceCall), List.replicate n (serving email ⟨0, 0⟩))] =
      thenAlone ([] : List (Action (service store policy init))) (.provision b id) n (serving email ⟨0, 0⟩) := by
    simp [inTurn, turnsFrom, thenAlone, List.map_replicate, exec, Config.initial]
  rw [← same] at he
  obtain ⟨y, found', state⟩ := only e he call
  rw [Option.some.inj (found'.symm.trans before)] at state
  rw [state] at off
  cases off

end OffPath

theorem provider_calls_iff_reached {S : Type} {store : RecordStore S} (laws : Lawful store) (policy : Policy) {init : S}
    (b : ProvisionBridge) {id : Text} {x : Record} (found : laws.row init id = some x) :
    (∀ oracles, OnlyInProvisioning laws policy init b id oracles) ↔
      offPath x.migrationState = false ∨ ¬ Reached laws b x := by
  constructor
  · intro only
    by_contra reached
    simp only [not_or, not_not, Bool.not_eq_false] at reached
    obtain ⟨oracles, fails⟩ := not_only_in_provisioning policy found reached.1 reached.2
    exact fails (only oracles)
  · exact fun h oracles => only_in_provisioning laws b oracles found h

theorem postgres_reached (d : Driver) (b : ProvisionBridge) (x : Record) :
    Reached (PostgresStore.lawful d) b x ↔ x.validateStructural = .ok () ∧ b.Callable x := by
  apply and_congr_left
  intro _
  change (d.scanN05 (some x)).toOption.isSome = true ↔ _
  have same : (d.handed x).validateStructural = x.validateStructural := rfl
  simp only [Driver.scanN05, same]
  cases x.validateStructural <;> simp [Except.toOption]

/-- For either store, every row and every bridge: whatever the provider and the store
answer, the row is in PROVISIONING at each provider call exactly if its state is on the path,
or the row or the bridge keeps the provider from being called at all. -/
theorem provider_calls_by_state (policy : Policy) (b : ProvisionBridge) (id : Text) (x : Record) :
    (∀ init, init.byID id = some x →
      ((∀ oracles, OnlyInProvisioning MemoryStore.lawful policy init b id oracles) ↔
        offPath x.migrationState = false ∨ ¬ b.Callable x)) ∧
    (∀ d init, init.find id = some x →
      ((∀ oracles, OnlyInProvisioning (PostgresStore.lawful d) policy init b id oracles) ↔
        offPath x.migrationState = false ∨ ¬ (x.validateStructural = .ok () ∧ b.Callable x))) := by
  constructor
  · intro init found
    rw [provider_calls_iff_reached MemoryStore.lawful policy b found]
    exact or_congr_right (not_congr (and_iff_right rfl))
  · intro d init found
    rw [provider_calls_iff_reached (PostgresStore.lawful d) policy b found, postgres_reached]

theorem provider_calls_from_ready :
    (∀ oracles, OnlyInProvisioning MemoryStore.lawful .phaseC (MemoryStore.sample .ready) humanBridge "m" oracles) ∧
    ∀ oracles, OnlyInProvisioning (PostgresStore.lawful .plain) .phaseC
      { records := [{ Record.sample .quarantined with identityClass := .breakGlass }] } humanBridge "m" oracles :=
  ⟨((provider_calls_by_state _ _ _ (.sample .ready)).1 _ rfl).mpr (.inl rfl),
    ((provider_calls_by_state _ _ _ { Record.sample .quarantined with identityClass := .breakGlass }).2 _ _ rfl).mpr
      (.inr (fun reached => reached.2))⟩

section Elsewhere

variable {S : Type} {store : RecordStore S} (laws : Lawful store) (policy : Policy) (init : S) (b : ProvisionBridge)
  (id : Text) (oracles : List (Oracle ports))

def callsElsewhere : Bool :=
  (provisionAlone policy init b id oracles store).trace.any
    (fun e => providerCall e && decide ((laws.row e.before id).map Record.migrationState ≠ some .provisioning))

variable {laws policy init b id oracles}

theorem callsElsewhere_not_only (h : callsElsewhere laws policy init b id oracles = true) :
    ¬ OnlyInProvisioning laws policy init b id oracles := by
  obtain ⟨e, he, found⟩ := List.any_eq_true.mp h
  simp only [Bool.and_eq_true, decide_eq_true_eq] at found
  intro only
  obtain ⟨x, row, state⟩ := only e he found.1
  exact found.2 (by rw [row, ← state]; rfl)

end Elsewhere

/-- A row in quarantine is not refused: its identity is made at the provider while it is
in quarantine. -/
theorem quarantined_row_is_provisioned :
    ¬ OnlyInProvisioning MemoryStore.lawful .phaseC (MemoryStore.sample .quarantined) humanBridge "m"
      (List.replicate 7 calm) ∧
    ¬ OnlyInProvisioning (PostgresStore.lawful .plain) .phaseC (Database.sample .quarantined) humanBridge "m"
      (List.replicate 7 calm) :=
  ⟨callsElsewhere_not_only (by decide), callsElsewhere_not_only (by decide)⟩

end Migration
