import BaobabIam.NativeBff.RateLimit

/-! How a request reaches a route of the browser handler. Admission looks the method
and the decoded path up in a table; the router splits the escaped path at its
slashes and decodes each part, and serves HEAD where GET is registered. Texts are
the bytes of the request line, a character each. -/
namespace NativeBff

/-- Percent escapes are replaced; what is not an escape stays. -/
def unescape : Text → Text
  | '%' :: a :: b :: t =>
    match Text.hexValue? a, Text.hexValue? b with
    | some x, some y => Char.ofNat (16 * x + y) :: unescape t
    | _, _ => '%' :: unescape (a :: b :: t)
  | c :: t => c :: unescape t
  | [] => []

structure Request where
  method : Text
  host : Text
  tls : Bool
  escapedPath : Text
  remoteAddr : Text

/-- `r.URL.Path`. -/
def Request.path (r : Request) : Text := unescape r.escapedPath

inductive Route where
  | start | login | consentPage | consent | callback | session | logout | logoutAll | recovery
  deriving DecidableEq

def Route.all : List Route := [.start, .login, .consentPage, .consent, .callback, .session,
    .logout, .logoutAll, .recovery]

def Route.method : Route → Text
  | .start | .consent | .logout | .logoutAll => "POST"
  | .login | .consentPage | .callback | .session | .recovery => "GET"

/-- The second part of the path; the first is `auth`. -/
def Route.name : Route → Text
  | .start => "start"
  | .login => "login"
  | .consentPage | .consent => "consent"
  | .callback => "callback"
  | .session => "session"
  | .logout => "logout"
  | .logoutAll => "logout-all"
  | .recovery => "recovery"

def Route.path (route : Route) : Text := "/auth/".toList ++ route.name

def parts (path : Text) : List Text := path.splitOn '/'

def Route.serves (route : Route) (r : Request) : Bool :=
  (r.method == route.method || r.method == "HEAD".toList && route.method == "GET".toList) &&
    (parts r.escapedPath).map unescape == [[], "auth".toList, route.name]

def router (r : Request) : Option Route := Route.all.find? (fun route => route.serves r)

inductive Event where
  | asked (operation remote : Text) (answer : Except Admission.AdmitError Unit)
  | handle (route : Route)

inductive Reply where
  | fail (status : Nat) (retryAfter : Option Nat)
  | handled (route : Route)
  /-- The router's own: not found, method not allowed, or a redirect. -/
  | unrouted

structure Handler where
  originHost : Text
  allowTestLoopback : Bool

def Request.operation (r : Request) : Text := r.method ++ ' ' :: r.path

def routed (r : Request) : List Event × Reply :=
  match router r with
  | some route => ([.handle route], .handled route)
  | none => ([], .unrouted)

def serveHTTP (h : Handler) (limiter : Text → Text → Except Admission.AdmitError Unit) (r : Request) :
    List Event × Reply :=
  if r.host ≠ h.originHost then ([], .fail 421 none)
  else if !r.tls && !h.allowTestLoopback then ([], .fail 426 none)
  else if (ceiling r.operation).isSome then
    let question := Event.asked r.operation r.remoteAddr (limiter r.operation r.remoteAddr)
    match limiter r.operation r.remoteAddr with
    | .error .rateLimited => ([question], .fail 429 (some 60))
    | .error _ => ([question], .fail 503 none)
    | .ok _ => (question :: (routed r).1, (routed r).2)
  else routed r

section Paths

theorem unescape_plain {c : Char} (h : c ≠ '%') (t : Text) : unescape (c :: t) = c :: unescape t := by
  rw [unescape]
  intro a b s percent
  exact absurd percent h

theorem unescape_stray {t : Text}
    (h : ∀ a b s, t = a :: b :: s → Text.hexValue? a = none ∨ Text.hexValue? b = none) :
    unescape ('%' :: t) = '%' :: unescape t := by
  match t with
  | [] => rfl
  | [a] => rfl
  | a :: b :: s =>
    rw [unescape]
    rcases h a b s rfl with none | none
    · rw [none]
    · rw [none]
      cases Text.hexValue? a <;> rfl

theorem unescape_slash (s t : Text) : unescape (s ++ '/' :: t) = unescape s ++ '/' :: unescape t := by
  have slash : Text.hexValue? '/' = none := by decide
  have tail : unescape ('/' :: t) = '/' :: unescape t := unescape_plain (by decide) t
  induction s using unescape.induct with
  | case1 a b s x y hx hy ih => simp [unescape, hx, hy, ih]
  | case2 a b s none ih =>
    have stray : ∀ u : Text, unescape ('%' :: a :: b :: u) = '%' :: unescape (a :: b :: u) := by
      intro u
      apply unescape_stray
      rintro a' b' s' ⟨⟩
      cases ha : Text.hexValue? a with
      | none => exact .inl rfl
      | some x =>
        cases hb : Text.hexValue? b with
        | none => exact .inr rfl
        | some y => exact absurd hb (none x y ha)
    simp only [List.cons_append, stray] at ih ⊢
    rw [ih]
  | case3 c s other ih =>
    by_cases percent : c = '%'
    · subst percent
      match s with
      | [] =>
        rw [List.cons_append, List.nil_append, unescape_stray, tail]
        · rfl
        · rintro a b u ⟨⟩
          exact .inl slash
      | [a] =>
        rw [List.cons_append, unescape_stray, ih]
        · rfl
        · rintro a' b u ⟨⟩
          exact .inr slash
      | a :: b :: u => exact absurd rfl (other a b u rfl)
    · rw [List.cons_append, unescape_plain percent, unescape_plain percent, ih, List.cons_append]
  | case4 => exact tail

theorem serves_path {route : Route} {r : Request} (h : route.serves r = true) : r.path = route.path := by
  simp only [Route.serves, Bool.and_eq_true, beq_iff_eq] at h
  obtain ⟨-, decoded⟩ := h
  have joined : List.intercalate ['/'] (parts r.escapedPath) = r.escapedPath := List.intercalate_splitOn '/'
  obtain ⟨p, ps, cut, hp, rest⟩ := List.map_eq_cons_iff.mp decoded
  obtain ⟨q, qs, cut', hq, rest⟩ := List.map_eq_cons_iff.mp rest
  obtain ⟨u, us, cut'', hu, rest⟩ := List.map_eq_cons_iff.mp rest
  rw [List.map_eq_nil_iff] at rest
  subst rest cut'' cut'
  rw [cut, List.intercalate_cons_cons, List.intercalate_cons_cons, List.intercalate_singleton] at joined
  simp only [List.append_assoc, List.singleton_append] at joined
  rw [Request.path, ← joined, unescape_slash, unescape_slash, hp, hq, hu]
  rfl

end Paths

section Admission

def Limited (r : Request) : Prop :=
  r.method ≠ "HEAD".toList ∧ r.path ≠ "/auth/logout-all".toList ∧ r.path ≠ "/auth/recovery".toList

def AdmittedFirst (r : Request) (route : Route) (events : List Event) : Prop :=
  ∃ before, events = before ++ [.handle route] ∧ .asked r.operation r.remoteAddr (.ok ()) ∈ before

variable {r : Request} {route : Route}

theorem router_serves (h : router r = some route) : route.serves r = true := by
  have found := List.find?_some (p := fun route => Route.serves route r) h
  exact found

theorem known_iff_limited (h : route.serves r = true) :
    (ceiling r.operation).isSome = true ↔ Limited r := by
  have path := serves_path h
  simp only [Route.serves, Bool.and_eq_true, Bool.or_eq_true, beq_iff_eq] at h
  unfold Limited Request.operation
  rw [path]
  rcases h.1 with method | ⟨head, get⟩
  · rw [method]
    cases route <;> decide
  · rw [head]
    cases route <;> decide

theorem handle_mem_routed (h : .handle route ∈ (routed r).1) :
    router r = some route ∧ (routed r).1 = [.handle route] := by
  unfold routed at h ⊢
  cases found : router r with
  | none => simp [found] at h
  | some other =>
    simp only [found, List.mem_singleton, Event.handle.injEq] at h
    simp [h]

/-- A handler runs on the router's word, after admission let the request pass or did not know it. -/
theorem handled_cases {h : Handler} {limiter : Text → Text → Except Admission.AdmitError Unit}
    (handled : .handle route ∈ (serveHTTP h limiter r).1) : router r = some route ∧
    ((ceiling r.operation).isSome = true ∧
        (serveHTTP h limiter r).1 = [.asked r.operation r.remoteAddr (.ok ()), .handle route] ∨
      (ceiling r.operation).isSome = false ∧ (serveHTTP h limiter r).1 = [.handle route]) := by
  unfold serveHTTP at handled ⊢
  by_cases host : r.host ≠ h.originHost
  · simp [host] at handled
  by_cases tls : (!r.tls && !h.allowTestLoopback) = true
  · simp [host, tls] at handled
  simp only [host, tls, if_false, Bool.false_eq_true] at handled ⊢
  cases known : (ceiling r.operation).isSome with
  | false =>
    simp only [known, Bool.false_eq_true, if_false] at handled ⊢
    obtain ⟨found, events⟩ := handle_mem_routed handled
    exact ⟨found, Or.inr ⟨trivial, events⟩⟩
  | true =>
    simp only [known, if_true] at handled ⊢
    cases answer : limiter r.operation r.remoteAddr with
    | error e =>
      rw [answer] at handled
      cases e <;> simp at handled
    | ok _ =>
      simp only [answer, List.mem_cons, reduceCtorEq, false_or] at handled ⊢
      obtain ⟨found, events⟩ := handle_mem_routed handled
      exact ⟨found, Or.inl ⟨trivial, by rw [events]⟩⟩

/-- A request that a route's handler serves was admitted before, if and only if it is limited. -/
theorem admitted_iff_limited (h : Handler) (limiter : Text → Text → Except Admission.AdmitError Unit) (r : Request)
    (route : Route) (handled : .handle route ∈ (serveHTTP h limiter r).1) :
    AdmittedFirst r route (serveHTTP h limiter r).1 ↔ Limited r := by
  obtain ⟨found, ways⟩ := handled_cases handled
  rw [← known_iff_limited (router_serves found)]
  rcases ways with ⟨known, events⟩ | ⟨unknown, events⟩
  · rw [known, events]
    constructor
    · intro _
      rfl
    · intro _
      exact ⟨[.asked r.operation r.remoteAddr (.ok ())], rfl, List.mem_singleton.mpr rfl⟩
  · rw [unknown, events]
    constructor
    · rintro ⟨before, cut, admitted⟩
      have none : before = [] := by
        cases before with
        | nil => rfl
        | cons e es => simp at cut
      simp [none] at admitted
    · intro known
      cases known

def browser : Handler := ⟨"bff.example".toList, false⟩

def request (method path : Text) : Request := ⟨method, "bff.example", true, path, "192.0.2.1:4000"⟩

theorem start_admitted :
    AdmittedFirst (request "POST" "/auth/start") .start
      (serveHTTP browser (fun _ _ => .ok ()) (request "POST" "/auth/start")).1 := by
  apply (admitted_iff_limited browser (fun _ _ => .ok ()) (request "POST" "/auth/start") .start ?_).mpr
  · exact ⟨by decide, by decide, by decide⟩
  · exact List.mem_cons_of_mem _ (List.mem_singleton.mpr rfl)

/-- A limiter that refuses everything stops none of these. -/
theorem unlimited_requests :
    (serveHTTP browser (fun _ _ => .error .rateLimited) (request "HEAD" "/auth/callback")).1 = [.handle .callback] ∧
    (serveHTTP browser (fun _ _ => .error .rateLimited) (request "POST" "/auth/logout-all")).1 =
    [.handle .logoutAll] ∧
    (serveHTTP browser (fun _ _ => .error .rateLimited) (request "GET" "/auth/recovery")).1 = [.handle .recovery] :=
  ⟨rfl, rfl, rfl⟩

end Admission

end NativeBff
