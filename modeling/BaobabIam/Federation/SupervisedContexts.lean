import BaobabIam.Federation.Consume

/-! The supervisor of one context handle. Calls take turns at its guard; a call returns
the stored handle while it is usable and acquires a new one otherwise. Every failure
behind the guard forgets the handle. A run is a sequence of calls, each with the answers
that it got, between which the parent may be cancelled and the worker may shut down. -/
namespace Federation.SupervisedContexts

open Wire Interleaving

structure ResolutionContext where
  contextID : Text
  expiresAt : Time
  deriving DecidableEq

def ResolutionContext.empty : ResolutionContext := ⟨[], ⟨0, 0⟩⟩

def validResolutionContextID (value : Text) : Bool :=
  !value.isEmpty && value.size ≤ 512 && trimmed value &&
  !value.any (fun c => ['\x00', '\r', '\n', '\t', ' '].contains c)

structure Settings where
  interval : Int
  margin : Int
  positive : 0 < interval
  covers : interval ≤ margin
  short : margin ≤ Time.minute

structure State where
  lastObserved : Time
  value : ResolutionContext

def State.initial : State := ⟨⟨0, 0⟩, .empty⟩
def State.clear (s : State) : State := { s with value := .empty }
def State.observe (s : State) (now : Time) : State := { s with lastObserved := now }

inductive Guard where
  | entered | callerEnded | parentEnded
  deriving DecidableEq

inductive Query where
  | guard | callerEnded | parentEnded | now | acquire | requestEnded
  deriving DecidableEq

abbrev Query.Answer : Query → Type
  | .guard => Guard
  | .callerEnded => Bool
  | .parentEnded => Bool
  | .now => Time
  | .acquire => Except Fault ResolutionContext
  | .requestEnded => Bool

abbrev ports : Interface := ⟨Query, Query.Answer⟩

abbrev Outcome := Except Fault ResolutionContext × State

def refuse (s : State) : Outcome := (.error .unavailable, s.clear)

def usable (c : Settings) (now : Time) (value : ResolutionContext) : Bool :=
  validResolutionContextID value.contextID && (now.add c.margin).before value.expiresAt

def longest : Int := 15 * Time.minute

def acceptable (c : Settings) (now finished : Time) (value : ResolutionContext) : Bool :=
  !finished.before now && usable c finished value && Consumer.duration value.expiresAt finished ≤ longest

/-- A new handle, or none: the old one is gone in either case. -/
def renew (c : Settings) (s : State) (now : Time) : Dialogue ports Outcome :=
  .ask .acquire fun answer =>
  .ask .now fun reading =>
  .ask .requestEnded fun requestEnded =>
  .ask .parentEnded fun parentEnded =>
    let finished := Time.utc reading
    match answer with
    | .error _ => .done (refuse s)
    | .ok value =>
      if !requestEnded && !parentEnded && acceptable c now finished value then .done (.ok value, ⟨finished, value⟩)
      else .done (refuse s)

def entered (c : Settings) (s : State) : Dialogue ports Outcome :=
  .ask .callerEnded fun callerEnded =>
  .ask .parentEnded fun parentEnded =>
    if callerEnded || parentEnded then .done (refuse s)
    else .ask .now fun reading =>
      let now := Time.utc reading
      if now.isZero || now.before s.lastObserved then .done (refuse s)
      else if usable c now s.value then .done (.ok s.value, s.observe now)
      else renew c (s.observe now) now

def context (c : Settings) (s : State) : Dialogue ports Outcome :=
  .ask .guard fun
    | .entered => entered c s
    | _ => .done (.error .unavailable, s)

/-- What happens to a supervisor. The worker's own renewals are calls. -/
inductive Event where
  | call (log : Log ports) (result : Except Fault ResolutionContext)
  | parentCancelled
  | shutdown

inductive Runs (c : Settings) : State → List Event → State → Prop
  | nil (s) : Runs c s [] s
  | call {s s' t L r es} : (context c s).Answered L (r, s') → Runs c s' es t → Runs c s (.call L r :: es) t
  | parentCancelled {s t es} : Runs c s es t → Runs c s (.parentCancelled :: es) t
  | shutdown {s t es} : Runs c s.clear es t → Runs c s (.shutdown :: es) t

def readingOf : (Σ q : Query, q.Answer) → Option Time
  | ⟨.now, reading⟩ => some (Time.utc reading)
  | _ => none

def lastReading (L : Log ports) : Option Time := (L.filterMap readingOf).getLast?

def Entered (L : Log ports) : Prop := ⟨Query.guard, Guard.entered⟩ ∈ L

section Calls

variable {c : Settings} {s t : State}

inductive Step (c : Settings) (s : State) : Log ports → Except Fault ResolutionContext → State → Prop
  | turnedAway {L e} : ¬ Entered L → Step c s L (.error e) s
  | failed {L e now} : Entered L → s.lastObserved.ns ≤ now.ns → Step c s L (.error e) ⟨now, .empty⟩
  | kept {L now} : ⟨Query.parentEnded, false⟩ ∈ L → lastReading L = some now →
      s.lastObserved.ns ≤ now.ns → usable c now s.value = true → Step c s L (.ok s.value) ⟨now, s.value⟩
  | renewed {L now value} : ⟨Query.parentEnded, false⟩ ∈ L → lastReading L = some now →
      s.lastObserved.ns ≤ now.ns →
      usable c now value = true → value.expiresAt.ns ≤ now.ns + longest → ⟨Query.acquire, .ok value⟩ ∈ L →
      Step c s L (.ok value) ⟨now, value⟩

theorem duration_le {a b : Time} (h : Consumer.duration a b ≤ longest) : a.ns ≤ b.ns + longest := by
  have small : longest < 2 ^ 63 - 1 := by decide
  simp only [Consumer.duration, Time.sub] at h
  omega

theorem lastReading_now (L : Log ports) (reading : Time) (rest : Log ports)
    (quiet : rest.filterMap readingOf = []) :
    lastReading (L ++ ⟨Query.now, reading⟩ :: rest) = some reading.utc := by
  simp only [lastReading, List.filterMap_append, List.filterMap_cons, readingOf, quiet]
  exact List.getLast?_concat

theorem renew_steps {now : Time} {L : Log ports} (inside : Entered L) (later : s.lastObserved.ns ≤ now.ns)
    (live : ⟨Query.parentEnded, false⟩ ∈ L) :
    (renew c (s.observe now) now).wp (fun _ _ _ => True) L (fun o L' => Step c s L' o.1 o.2) := by
  intro answer _ reading _ requestEnded _ parentEnded _
  simp only [List.append_assoc, List.cons_append, List.nil_append]
  have still : ∀ M, Entered (L ++ M) := fun M => List.mem_append_left M inside
  cases answer with
  | error e => exact .failed (still _) later
  | ok value =>
    simp only
    split
    · rename_i passed
      simp only [acceptable, Bool.and_eq_true, Bool.not_eq_true', Time.before_false, decide_eq_true_eq] at passed
      obtain ⟨-, ⟨forward, use⟩, span⟩ := passed
      refine .renewed (List.mem_append_left _ live) ?_ (later.trans forward) use (duration_le span) (by simp)
      have reads := lastReading_now (L ++ [⟨Query.acquire, .ok value⟩]) reading
        [⟨Query.requestEnded, requestEnded⟩, ⟨Query.parentEnded, parentEnded⟩] rfl
      rwa [List.append_assoc] at reads
    · exact .failed (still _) later

theorem context_steps (c : Settings) (s : State) :
    (context c s).wp (fun _ _ _ => True) [] (fun o L => Step c s L o.1 o.2) := by
  intro guard _
  cases guard with
  | callerEnded => exact .turnedAway (by simp [Entered])
  | parentEnded => exact .turnedAway (by simp [Entered])
  | entered =>
    intro callerEnded _ parentEnded _
    simp only [List.cons_append, List.nil_append]
    cases ended : callerEnded || parentEnded with
    | true => exact .failed (by simp [Entered]) (le_refl _)
    | false =>
      obtain ⟨rfl, rfl⟩ := Bool.or_eq_false_iff.mp ended
      intro reading _
      simp only [List.cons_append, List.nil_append]
      split
      · exact .failed (by simp [Entered]) (le_refl _)
      · rename_i forward
        simp only [Bool.or_eq_true, not_or, Bool.not_eq_true, Time.before_false] at forward
        split
        · rename_i use
          exact .kept (by simp) rfl forward.2 use
        · exact renew_steps (by simp [Entered]) forward.2 (by simp)

theorem step_of_answered {L : Log ports} {r : Except Fault ResolutionContext}
    (answered : (context c s).Answered L (r, t)) : Step c s L r t := answered.post (context_steps c s)

/-- The stored handle, if there is one, does not outlast the last observation by more
than the longest lifetime. -/
def Bounded (s : State) : Prop :=
  validResolutionContextID s.value.contextID = true → s.value.expiresAt.ns ≤ s.lastObserved.ns + longest

/-- A handle as it may be returned at the time `r`. -/
structure Live (c : Settings) (r : Time) (value : ResolutionContext) : Prop where
  named : validResolutionContextID value.contextID = true
  early : r.ns + c.margin < value.expiresAt.ns
  short : value.expiresAt.ns ≤ r.ns + longest

theorem usable_iff {now : Time} {value : ResolutionContext} : usable c now value = true ↔
    validResolutionContextID value.contextID = true ∧ now.ns + c.margin < value.expiresAt.ns := by
  simp [usable, Time.add]

theorem empty_unusable (now : Time) : usable c now .empty = false := rfl

variable {L : Log ports} {r : Except Fault ResolutionContext} {v : ResolutionContext}

theorem Step.later (step : Step c s L r t) : s.lastObserved.ns ≤ t.lastObserved.ns := by
  cases step with
  | turnedAway => exact le_refl _
  | failed _ later => exact later
  | kept _ _ later _ => exact later
  | renewed _ _ later _ _ _ => exact later

theorem Step.bounded (step : Step c s L r t) (bounded : Bounded s) : Bounded t := by
  cases step with
  | turnedAway => exact bounded
  | failed _ _ =>
    rintro ⟨⟩
  | kept _ _ later _ =>
    intro named
    have := bounded named
    simp only
    omega
  | renewed _ _ _ _ short _ => exact fun _ => short

/-- A returned handle is live at the last reading, which is the last observation. -/
theorem Step.live (step : Step c s L (.ok v) t) (bounded : Bounded s) :
    lastReading L = some t.lastObserved ∧ Live c t.lastObserved v := by
  cases step with
  | kept _ reading later use =>
    obtain ⟨named, early⟩ := usable_iff.mp use
    refine ⟨reading, named, early, ?_⟩
    have := bounded named
    simp only
    omega
  | renewed _ reading _ use short _ =>
    obtain ⟨named, early⟩ := usable_iff.mp use
    exact ⟨reading, named, early, short⟩

theorem Step.parent_live (step : Step c s L (.ok v) t) : ⟨Query.parentEnded, false⟩ ∈ L := by
  cases step with
  | kept live _ _ _ => exact live
  | renewed live _ _ _ _ _ => exact live

theorem Step.acquired (step : Step c s L (.ok v) t) (none : s.value = .empty) : ⟨Query.acquire, .ok v⟩ ∈ L := by
  cases step with
  | kept _ _ _ use =>
    rw [none, empty_unusable] at use
    cases use
  | renewed _ _ _ _ _ acquired => exact acquired

theorem Step.forgets {e : Fault} (step : Step c s L (.error e) t) (inside : Entered L) : t.value = .empty := by
  cases step with
  | turnedAway outside => exact absurd inside outside
  | failed _ _ => rfl

theorem Step.still_empty {e : Fault} (step : Step c s L (.error e) t) (none : s.value = .empty) : t.value = .empty := by
  cases step with
  | turnedAway _ => exact none
  | failed _ _ => rfl

end Calls

section Histories

variable {c : Settings} {s t : State} {es fs : List Event}

theorem runs_append : Runs c s (es ++ fs) t ↔ ∃ m, Runs c s es m ∧ Runs c m fs t := by
  induction es generalizing s with
  | nil =>
    constructor
    · intro run
      exact ⟨s, .nil s, run⟩
    · rintro ⟨m, ⟨⟩, rest⟩
      exact rest
  | cons e es ih =>
    constructor
    · intro run
      cases run with
      | call answered rest =>
        obtain ⟨m, first, last_⟩ := ih.mp rest
        exact ⟨m, .call answered first, last_⟩
      | parentCancelled rest =>
        obtain ⟨m, first, last_⟩ := ih.mp rest
        exact ⟨m, .parentCancelled first, last_⟩
      | shutdown rest =>
        obtain ⟨m, first, last_⟩ := ih.mp rest
        exact ⟨m, .shutdown first, last_⟩
    · rintro ⟨m, run, rest⟩
      cases run with
      | call answered first => exact .call answered (ih.mpr ⟨m, first, rest⟩)
      | parentCancelled first => exact .parentCancelled (ih.mpr ⟨m, first, rest⟩)
      | shutdown first => exact .shutdown (ih.mpr ⟨m, first, rest⟩)

theorem Runs.later (run : Runs c s es t) : s.lastObserved.ns ≤ t.lastObserved.ns := by
  induction run with
  | nil s => exact le_refl _
  | call answered _ ih => exact (step_of_answered answered).later.trans ih
  | parentCancelled _ ih => exact ih
  | shutdown _ ih => exact ih

theorem Runs.bounded (run : Runs c s es t) (bounded : Bounded s) : Bounded t := by
  induction run with
  | nil s => exact bounded
  | call answered _ ih => exact ih ((step_of_answered answered).bounded bounded)
  | parentCancelled _ ih => exact ih bounded
  | shutdown _ ih =>
    apply ih
    rintro ⟨⟩

theorem Runs.still_empty (run : Runs c s es t) (fails : ∀ L v, Event.call L (.ok v) ∉ es)
    (none : s.value = .empty) : t.value = .empty := by
  induction run with
  | nil s => exact none
  | @call s s' t L r es answered _ ih =>
    apply ih (fun L v member => fails L v (List.mem_cons_of_mem _ member))
    cases r with
    | ok v => exact absurd List.mem_cons_self (fails L v)
    | error e => exact (step_of_answered answered).still_empty none
  | parentCancelled _ ih => exact ih (fun L v member => fails L v (List.mem_cons_of_mem _ member)) none
  | shutdown _ ih => exact ih (fun L v member => fails L v (List.mem_cons_of_mem _ member)) rfl

theorem runs_call {L : Log ports} {r : Except Fault ResolutionContext} (run : Runs c s (.call L r :: es) t) :
    ∃ m, Step c s L r m ∧ Runs c m es t := by
  cases run with
  | call answered rest => exact ⟨_, step_of_answered answered, rest⟩

def Event.answers : Event → Log ports
  | .call log _ => log
  | .parentCancelled => [⟨Query.parentEnded, true⟩]
  | .shutdown => [⟨Query.parentEnded, true⟩]

def showsEnd : (Σ q : Query, q.Answer) → Bool
  | ⟨.guard, .parentEnded⟩ => true
  | ⟨.parentEnded, ended⟩ => ended
  | _ => false

def Persistent (L : Log ports) : Prop :=
  L.Pairwise (fun x y => showsEnd x = true → y ≠ ⟨Query.parentEnded, false⟩)

end Histories

/-- Every handle that is ever returned is live; observations go forward; a failure
behind the guard makes the next success acquire; and after the parent's end there is
no success at all. -/
theorem contexts_live (c : Settings) (es : List Event) (t : State) (run : Runs c .initial es t) :
    (∀ before L v after, es = before ++ .call L (.ok v) :: after → ∃ r, lastReading L = some r ∧ Live c r v) ∧
    (∀ before L v between L' v' after, es = before ++ .call L (.ok v) :: (between ++ .call L' (.ok v') :: after) →
      ∃ r r', lastReading L = some r ∧ lastReading L' = some r' ∧ r.ns ≤ r'.ns) ∧
    (∀ before after, es = before ++ after → ∃ s, Runs c .initial before s ∧ Runs c s after t ∧
      s.lastObserved.ns ≤ t.lastObserved.ns) ∧
    (∀ before L e after, es = before ++ .call L (.error e) :: after → Entered L →
      ∃ s, Runs c .initial (before ++ [.call L (.error e)]) s ∧ Runs c s after t ∧ s.value = .empty) ∧
    (∀ before L e between L' v after, es = before ++ .call L (.error e) :: (between ++ .call L' (.ok v) :: after) →
      Entered L → (∀ M w, Event.call M (.ok w) ∉ between) → ⟨Query.acquire, .ok v⟩ ∈ L') ∧
    (∀ before L v after, es = before ++ .call L (.ok v) :: after → Persistent (es.flatMap Event.answers) →
      ∀ e ∈ before, ∀ x ∈ e.answers, showsEnd x = false) := by
  have start : Bounded .initial := by rintro ⟨⟩
  refine ⟨?_, ?_, ?_, ?_, ?_, ?_⟩
  · rintro before L v after rfl
    obtain ⟨m, first, rest⟩ := runs_append.mp run
    obtain ⟨n, step, -⟩ := runs_call rest
    exact ⟨n.lastObserved, step.live (first.bounded start)⟩
  · rintro before L v between L' v' after rfl
    obtain ⟨m, first, rest⟩ := runs_append.mp run
    obtain ⟨n, step, rest⟩ := runs_call rest
    obtain ⟨m', second, rest⟩ := runs_append.mp rest
    obtain ⟨n', step', -⟩ := runs_call rest
    have bounded := step.bounded (first.bounded start)
    exact ⟨n.lastObserved, n'.lastObserved, (step.live (first.bounded start)).1,
      (step'.live (second.bounded bounded)).1, second.later.trans step'.later⟩
  · rintro before after rfl
    obtain ⟨m, first, rest⟩ := runs_append.mp run
    exact ⟨m, first, rest, rest.later⟩
  · rintro before L e after rfl inside
    obtain ⟨m, first, rest⟩ := runs_append.mp run
    cases rest with
    | call answered rest =>
      exact ⟨_, runs_append.mpr ⟨m, first, .call answered (.nil _)⟩, rest,
        (step_of_answered answered).forgets inside⟩
  · rintro before L e between L' v after rfl inside fails
    obtain ⟨m, first, rest⟩ := runs_append.mp run
    obtain ⟨n, step, rest⟩ := runs_call rest
    obtain ⟨m', second, rest⟩ := runs_append.mp rest
    obtain ⟨n', step', -⟩ := runs_call rest
    exact step'.acquired (second.still_empty fails (step.forgets inside))
  · rintro before L v after rfl persistent e member x shown
    obtain ⟨m, first, rest⟩ := runs_append.mp run
    obtain ⟨n, step, -⟩ := runs_call rest
    rw [List.flatMap_append] at persistent
    have apart := (List.pairwise_append.mp persistent).2.2 x (List.mem_flatMap.mpr ⟨e, member, shown⟩)
      ⟨Query.parentEnded, false⟩ (List.mem_flatMap.mpr ⟨_, List.mem_cons_self, step.parent_live⟩)
    by_contra ended
    exact apart (by simpa using ended) rfl

namespace Sample

def settings : Settings := ⟨Time.second, Time.minute, by decide, by decide, by decide⟩

def reading : Time := ⟨100 * Time.second, 0⟩
def handle : ResolutionContext := ⟨"ctx", ⟨100 * Time.second + 5 * Time.minute, 0⟩⟩

def between : Time := ⟨130 * Time.second, 0⟩
def later : Time := ⟨150 * Time.second, 0⟩
def next : ResolutionContext := ⟨"next", ⟨150 * Time.second + 5 * Time.minute, 0⟩⟩

def acquiring (now : Time) (value : ResolutionContext) : Log ports :=
  [⟨Query.guard, Guard.entered⟩, ⟨Query.callerEnded, false⟩,
    ⟨Query.parentEnded, false⟩, ⟨Query.now, now⟩,
   ⟨Query.acquire, .ok value⟩, ⟨Query.now, now⟩, ⟨Query.requestEnded, false⟩,
   ⟨Query.parentEnded, false⟩]

def cached : Log ports :=
  [⟨Query.guard, Guard.entered⟩, ⟨Query.callerEnded, false⟩,
    ⟨Query.parentEnded, false⟩, ⟨Query.now, between⟩]

def ended : Log ports := [⟨Query.guard, Guard.entered⟩, ⟨Query.callerEnded, true⟩,
    ⟨Query.parentEnded, false⟩]

/-- A handle is acquired, used again, lost to a call whose caller has ended, and replaced. -/
def events : List Event :=
  [.call (acquiring reading handle) (.ok handle), .call cached (.ok handle), .call ended (.error .unavailable),
    .call (acquiring later next) (.ok next)]

theorem replaces : Runs settings .initial events ⟨later, next⟩ := by
  have first : (context settings .initial).Answered (acquiring reading handle) (.ok handle, ⟨reading, handle⟩) :=
    ⟨_, _, rfl, _, _, rfl, _, _, rfl, _, _, rfl, _, _, rfl, _, _, rfl, _, _, rfl, _, _, rfl, rfl, rfl⟩
  have again : (context settings ⟨reading, handle⟩).Answered cached (.ok handle, ⟨between, handle⟩) :=
    ⟨_, _, rfl, _, _, rfl, _, _, rfl, _, _, rfl, rfl, rfl⟩
  have failed : (context settings ⟨between, handle⟩).Answered ended (.error .unavailable, ⟨between, .empty⟩) :=
    ⟨_, _, rfl, _, _, rfl, _, _, rfl, rfl, rfl⟩
  have renewed : (context settings ⟨between, .empty⟩).Answered (acquiring later next)
      (.ok next, ⟨later, next⟩) :=
    ⟨_, _, rfl, _, _, rfl, _, _, rfl, _, _, rfl, _, _, rfl, _, _, rfl, _, _, rfl, _, _, rfl, rfl, rfl⟩
  exact .call first (.call again (.call failed (.call renewed (.nil _))))

end Sample

theorem contexts_live_sample :
    (∃ r, lastReading Sample.cached = some r ∧ Live Sample.settings r Sample.handle) ∧
    (∃ s, Runs Sample.settings .initial (Sample.events.take 3) s ∧ s.value = .empty) ∧
    ∃ r, lastReading (Sample.acquiring Sample.later Sample.next) = some r ∧ Live Sample.settings r Sample.next := by
  obtain ⟨live, -, -, forgotten, -⟩ := contexts_live Sample.settings Sample.events _ Sample.replaces
  refine ⟨live [_] _ _ _ rfl, ?_, live [_, _, _] _ _ [] rfl⟩
  obtain ⟨s, runs, -, empty⟩ := forgotten [_, _] Sample.ended .unavailable [_] rfl List.mem_cons_self
  exact ⟨s, runs, empty⟩

end Federation.SupervisedContexts
