import BaobabIam.Base.Runs
import Mathlib.Logic.Relation
import Mathlib.Logic.Function.Basic

/-! Systems that call each other. Every party is a system with threads and a store of
its own; a question of one party may stand for a call of another one. Such a question
is answered by what that call returns and by nothing else, and the call begins while
its caller waits. Each party on its own takes an ordinary run, so what holds of every
run of a party holds in the network; `answered_later` says which calls an answer can
come from, and `paused` finds the moment at which a question was reached. -/
namespace Interleaving

open Relation

/-- A call that answers a question of type `A`. -/
structure Route {ι : Type} {I : ι → Interface} {S E : ι → Type} (sys : (n : ι) → System (I n) (S n) (E n))
    (A : Type) where
  party : ι
  call : (sys party).Call
  reply : Except (E party) ((sys party).Result call) → A

structure Network (ι : Type) where
  I : ι → Interface
  S : ι → Type
  E : ι → Type
  sys : (n : ι) → System (I n) (S n) (E n)
  route : (n : ι) → (q : (I n).Query) → Option (Route sys ((I n).Answer q))

structure World {ι : Type} (net : Network ι) where
  part : (n : ι) → Config (net.sys n)
  /-- The call, a thread of some party, that a thread waits for. -/
  waits : ι → Nat → Option (ι × Nat)

variable {ι : Type} {net : Network ι}

def World.initial (net : Network ι) : World net := ⟨fun n => Config.initial (net.sys n), fun _ _ => none⟩

def World.log (w : World net) (n : ι) (i : Nat) : Log (net.I n) := ((w.part n).threads[i]?).elim [] Thread.log

theorem log_found {w : World net} {n : ι} {i : Nat} {t : Thread (net.sys n)}
    (found : (w.part n).threads[i]? = some t) : w.log n i = t.log := by
  simp [World.log, found]

theorem log_absent {w : World net} {n : ι} {i : Nat} (absent : (w.part n).threads[i]? = none) : w.log n i = [] := by
  simp [World.log, absent]

variable [DecidableEq ι]

def World.setPart (w : World net) (n : ι) (cfg : Config (net.sys n)) : World net :=
  ⟨Function.update w.part n cfg, w.waits⟩

def World.setWait (w : World net) (n : ι) (i : Nat) (j : Option (ι × Nat)) : World net :=
  ⟨w.part, Function.update w.waits n (Function.update (w.waits n) i j)⟩

inductive Moves (w : World net) : World net → Prop
  /-- A call from outside. -/
  | begin (n : ι) (c : (net.sys n).Call) : Moves w (w.setPart n ((w.part n).act (.begin c)))
  /-- A thread that does not wait takes a step; the outside answers no question that stands for a call. -/
  | step (n : ι) (i : Nat) (oracle : Oracle (net.I n)) (idle : w.waits n i = none)
      (outside : ∀ t t', (w.part n).threads[i]? = some t →
        ((w.part n).stepThread i oracle).threads[i]? = some t' →
        ∀ x ∈ t'.log.drop t.log.length, net.route n x.1 = none) :
      Moves w (w.setPart n ((w.part n).stepThread i oracle))
  | call (n : ι) (i : Nat) (c : (net.sys n).Call) (L : Log (net.I n)) (q : (net.I n).Query)
      (k : (net.I n).Answer q → Prog (net.I n) (net.S n) (net.E n) ((net.sys n).Result c))
      (r : Route net.sys ((net.I n).Answer q)) (found : (w.part n).threads[i]? = some ⟨c, L, .ask q k⟩)
      (routed : net.route n q = some r) (idle : w.waits n i = none) :
      Moves w ((w.setPart r.party ((w.part r.party).act (.begin r.call))).setWait n i
        (some (r.party, (w.part r.party).threads.length)))
  | reply (n : ι) (i : Nat) (c : (net.sys n).Call) (L : Log (net.I n)) (q : (net.I n).Query)
      (k : (net.I n).Answer q → Prog (net.I n) (net.S n) (net.E n) ((net.sys n).Result c))
      (r : Route net.sys ((net.I n).Answer q)) (j : Nat) (L' : Log (net.I r.party))
      (result : Except (net.E r.party) ((net.sys r.party).Result r.call)) (oracle : Oracle (net.I n))
      (found : (w.part n).threads[i]? = some ⟨c, L, .ask q k⟩) (routed : net.route n q = some r)
      (waiting : w.waits n i = some (r.party, j))
      (ended : (w.part r.party).threads[j]? = some ⟨r.call, L', Prog.ofExcept result⟩)
      (answer : oracle L q = r.reply result)
      (admitted : (net.sys n).admits (w.part n).logs L q (oracle L q) = true) :
      Moves w ((w.setPart n ((w.part n).stepThread i oracle)).setWait n i none)

abbrev Runs (net : Network ι) : World net → World net → Prop := ReflTransGen Moves

abbrev Reachable (w : World net) : Prop := Runs net (World.initial net) w

section Parts

variable {w w' : World net}

@[simp] theorem setPart_same (n : ι) (cfg : Config (net.sys n)) : (w.setPart n cfg).part n = cfg := by
  simp [World.setPart]

theorem setPart_ne {n m : ι} (ne : m ≠ n) (cfg : Config (net.sys n)) : (w.setPart n cfg).part m = w.part m := by
  simp [World.setPart, ne]

@[simp] theorem setWait_part (n m : ι) (i : Nat) (j : Option (ι × Nat)) : (w.setWait n i j).part m = w.part m := rfl

@[simp] theorem setWait_same (n : ι) (i : Nat) (j : Option (ι × Nat)) : (w.setWait n i j).waits n i = j := by
  simp [World.setWait]

theorem setWait_ne {n m : ι} {i l : Nat} (other : m ≠ n ∨ l ≠ i) (j : Option (ι × Nat)) :
    (w.setWait n i j).waits m l = w.waits m l := by
  simp only [World.setWait]
  by_cases same : m = n
  · subst same
    rw [Function.update_self]
    rcases other with ne | ne
    · exact absurd rfl ne
    · exact Function.update_of_ne ne _ _
  · rw [Function.update_of_ne same]

theorem Moves.part (h : Moves w w') (m : ι) : w'.part m = w.part m ∨ ∃ a, w'.part m = (w.part m).act a := by
  have one : ∀ (n : ι) (a : Action (net.sys n)) (w' : World net), w'.part = (w.setPart n ((w.part n).act a)).part →
      w'.part m = w.part m ∨ ∃ a, w'.part m = (w.part m).act a := by
    intro n a w' eq
    rw [eq]
    by_cases same : m = n
    · subst same
      exact .inr ⟨a, setPart_same _ _⟩
    · exact .inl (setPart_ne same _)
  cases h with
  | begin n c => exact one n (.begin c) _ rfl
  | step n i oracle => exact one n (.step i oracle) _ rfl
  | call n i c L q k r => exact one r.party (.begin r.call) _ rfl
  | reply n i c L q k r j L' result oracle => exact one n (.step i oracle) _ rfl

theorem runs_part (h : Runs net w w') (m : ι) :
    ∃ later : List (Action (net.sys m)), w'.part m = later.foldl Config.act (w.part m) := by
  induction h with
  | refl => exact ⟨[], rfl⟩
  | tail _ step ih =>
    obtain ⟨later, eq⟩ := ih
    rcases step.part m with same | ⟨a, acted⟩
    · exact ⟨later, same.trans eq⟩
    · exact ⟨later ++ [a], by rw [acted, eq, List.foldl_append]; rfl⟩

theorem runs_threads (h : Runs net w w') (m : ι) : (w.part m).threads.length ≤ (w'.part m).threads.length := by
  obtain ⟨later, eq⟩ := runs_part h m
  rw [eq]
  exact foldl_threads later _

theorem reachable_exec (h : Reachable w) (m : ι) : ∃ schedule, w.part m = exec (net.sys m) schedule := runs_part h m

theorem runs_exec (start : Reachable w) (h : Runs net w w') (m : ι) :
    ∃ schedule later, w.part m = exec (net.sys m) schedule ∧ w'.part m = exec (net.sys m) (schedule ++ later) := by
  obtain ⟨schedule, eq⟩ := reachable_exec start m
  obtain ⟨later, eq'⟩ := runs_part h m
  exact ⟨schedule, later, eq, by rw [eq', eq, exec_append]⟩

end Parts

section Threads

variable {I : Interface} {S ε : Type} {sys : System I S ε} {cfg : Config sys}

variable {j i : Nat} {c : sys.Call} {t : Thread sys}

theorem stepThread_own {oracle : Oracle I} (found : cfg.threads[i]? = some t) :
    ∃ t' D, (cfg.stepThread i oracle).threads[i]? = some t' ∧ t'.call = t.call ∧ t'.log = t.log ++ D := by
  have bound := (List.getElem?_eq_some_iff.mp found).1
  obtain ⟨c, L, prog⟩ := t
  unfold Config.stepThread
  simp only [found]
  cases prog with
  | ret a => exact ⟨_, [], found, rfl, by simp⟩
  | fail e => exact ⟨_, [], found, rfl, by simp⟩
  | ask q k =>
    simp only
    split
    · exact ⟨_, _, List.getElem?_set_self bound, rfl, rfl⟩
    · exact ⟨_, [], found, rfl, by simp⟩
  | atomic tx k =>
    simp only
    split
    · exact ⟨_, [], found, rfl, by simp⟩
    · rename_i r log ran
      obtain ⟨D, rfl⟩ := Dialogue.run_grows ran
      exact ⟨_, D, List.getElem?_set_self bound, rfl, rfl⟩

end Threads

section Fates

variable {w w' w₁ w₂ : World net} {n : ι} {i : Nat}

theorem moves_ended (h : Moves w w') {m : ι} {j : Nat} {c : (net.sys m).Call} {L : Log (net.I m)}
    {r : Except (net.E m) ((net.sys m).Result c)} (ended : (w.part m).threads[j]? = some ⟨c, L, Prog.ofExcept r⟩) :
    (w'.part m).threads[j]? = some ⟨c, L, Prog.ofExcept r⟩ := by
  rcases h.part m with same | ⟨a, acted⟩
  · rw [same]
    exact ended
  · rw [acted]
    exact (act_ended ended a).1

inductive Fate (w w' : World net) (n : ι) (i : Nat) (t : Thread (net.sys n)) : Prop
  | still (same : (w'.part n).threads[i]? = some t) (waits : w'.waits n i = w.waits n i)
  | own (t' : Thread (net.sys n)) (D : Log (net.I n)) (found : (w'.part n).threads[i]? = some t')
      (call : t'.call = t.call)
      (log : t'.log = t.log ++ D) (unrouted : ∀ x ∈ D, net.route n x.1 = none) (idle : w'.waits n i = none)
  | called (m : ι) (same : (w'.part n).threads[i]? = some t) (idle : w.waits n i = none)
      (waits : w'.waits n i = some (m, (w.part m).threads.length))
  | replied (t' : Thread (net.sys n)) (q : (net.I n).Query) (r : Route net.sys ((net.I n).Answer q)) (j : Nat)
      (L : Log (net.I r.party)) (result : Except (net.E r.party) ((net.sys r.party).Result r.call))
      (found : (w'.part n).threads[i]? = some t') (call : t'.call = t.call)
      (log : t'.log = t.log ++ [⟨q, r.reply result⟩]) (routed : net.route n q = some r)
      (waiting : w.waits n i = some (r.party, j))
      (ended : (w'.part r.party).threads[j]? = some ⟨r.call, L, Prog.ofExcept result⟩) (idle : w'.waits n i = none)

theorem Moves.fate (h : Moves w w') {t : Thread (net.sys n)} (found : (w.part n).threads[i]? = some t) :
    Fate w w' n i t := by
  have later := fun (m : ι) (j : Nat) (c : (net.sys m).Call) (L : Log (net.I m))
    (r : Except (net.E m) ((net.sys m).Result c)) => moves_ended h (m := m) (j := j) (c := c) (L := L) (r := r)
  -- a call that begins leaves every thread as it is
  have begun : ∀ (m : ι) (c : (net.sys m).Call),
      ((w.setPart m ((w.part m).act (.begin c))).part n).threads[i]? = some t := by
    intro m c
    by_cases same : n = m
    · subst same
      rw [setPart_same]
      exact begin_other found
    · rw [setPart_ne same]
      exact found
  have elsewhere : ∀ (m : ι) (l : Nat) (oracle : Oracle (net.I m)), n ≠ m ∨ i ≠ l →
      ((w.setPart m ((w.part m).stepThread l oracle)).part n).threads[i]? = some t := by
    intro m l oracle other
    by_cases same : n = m
    · subst same
      rw [setPart_same, stepThread_other oracle (other.resolve_left (fun ne => ne rfl))]
      exact found
    · rw [setPart_ne same]
      exact found
  cases h with
  | begin m c => exact .still (begun m c) rfl
  | step m l oracle idle outside =>
    by_cases here : n = m ∧ i = l
    · obtain ⟨rfl, rfl⟩ := here
      obtain ⟨t', D, at_, call, log⟩ : ∃ t' D, ((w.part n).stepThread i oracle).threads[i]? = some t' ∧
          t'.call = t.call ∧ t'.log = t.log ++ D := stepThread_own found
      refine .own t' D (by rw [setPart_same]; exact at_) call log ?_ idle
      have fresh := outside t t' found at_
      rwa [log, List.drop_left] at fresh
    · exact .still (elsewhere m l oracle (not_and_or.mp here)) rfl
  | call m l c L q k r at_ routed idle =>
    by_cases here : n = m ∧ i = l
    · obtain ⟨rfl, rfl⟩ := here
      exact .called r.party (begun r.party r.call) idle (setWait_same _ _ _)
    · exact .still (begun r.party r.call) (setWait_ne (not_and_or.mp here) _)
  | reply m l c L q k r j L' result oracle at_ routed waiting ended answer admitted =>
    by_cases here : n = m ∧ i = l
    · obtain ⟨rfl, rfl⟩ := here
      rw [at_] at found
      cases found
      have bound := (List.getElem?_eq_some_iff.mp at_).1
      refine .replied ⟨c, L ++ [⟨q, r.reply result⟩], k (r.reply result)⟩ q r j L' result ?_ rfl rfl
        routed waiting (later _ _ _ _ _ ended) (setWait_same _ _ _)
      rw [setWait_part, setPart_same, Config.stepThread_ask at_ admitted, answer]
      exact List.getElem?_set_self bound
    · exact .still (elsewhere m l oracle (not_and_or.mp here)) (setWait_ne (not_and_or.mp here) _)

/-- A thread that does not exist yet begins with an empty log, and nobody waits in its place. -/
theorem Moves.unborn (h : Moves w w') (absent : (w.part n).threads[i]? = none) :
    w'.waits n i = w.waits n i ∧ ∀ t, (w'.part n).threads[i]? = some t → t.log = [] := by
  have missing : ∀ {c L} {p : Prog (net.I n) (net.S n) (net.E n) ((net.sys n).Result c)},
      (w.part n).threads[i]? ≠ some ⟨c, L, p⟩ := by
    intro c L p there
    rw [absent] at there
    cases there
  constructor
  · cases h with
    | begin m c => rfl
    | step m l oracle => rfl
    | call m l c L q k r at_ | reply m l c L q k r j L' result oracle at_ =>
      apply setWait_ne
      by_contra here
      obtain ⟨rfl, rfl⟩ : n = m ∧ i = l := by tauto
      exact missing at_
  · intro t found
    rcases h.part n with same | ⟨a, acted⟩
    · rw [same, absent] at found
      cases found
    · rw [acted] at found
      cases a with
      | begin c =>
        have bound := List.getElem?_eq_none_iff.mp absent
        simp only [Config.act] at found
        rw [List.getElem?_append_right bound] at found
        rw [List.mem_singleton.mp (List.mem_of_getElem? found)]
      | step l oracle =>
        by_cases same : i = l
        · subst same
          simp only [Config.act, Config.stepThread, absent] at found
          cases found
        · simp only [Config.act] at found
          rw [stepThread_other oracle same, absent] at found
          cases found

end Fates

section Answers

variable {w₁ w₂ : World net} {n : ι} {i : Nat}

def Called (w₁ w₂ : World net) (n : ι) (i : Nat) (m : ι) (j : Nat) : Prop :=
  ∃ w, Runs net w₁ w ∧ Runs net w w₂ ∧ w.waits n i = some (m, j)

theorem Called.mono {w₁' w₂' : World net} {m : ι} {j : Nat} (h : Called w₁ w₂ n i m j)
    (first : Runs net w₁' w₁) (later : Runs net w₂ w₂') : Called w₁' w₂' n i m j := by
  obtain ⟨w, before, after, waits⟩ := h
  exact ⟨w, first.trans before, after.trans later, waits⟩

def Answered (w₁ w₂ : World net) (n : ι) (i : Nat) (q : (net.I n).Query) (a : (net.I n).Answer q)
    (r : Route net.sys ((net.I n).Answer q)) : Prop :=
  ∃ j L result, Called w₁ w₂ n i r.party j ∧ (w₁.part r.party).threads.length ≤ j ∧
    (w₂.part r.party).threads[j]? = some ⟨r.call, L, Prog.ofExcept result⟩ ∧ a = r.reply result

/-- A thread that does not wait for a party: the answers it gets from that party later
come from calls that begin later. -/
theorem answered_later (h : Runs net w₁ w₂) (m : ι) (idle : ∀ j, w₁.waits n i ≠ some (m, j)) :
    ∃ D, w₂.log n i = w₁.log n i ++ D ∧ ∀ x ∈ D, ∀ r, net.route n x.1 = some r → r.party = m →
      Answered w₁ w₂ n i x.1 x.2 r := by
  suffices both : (∀ j, w₂.waits n i = some (m, j) → (w₁.part m).threads.length ≤ j) ∧
      ∃ D, w₂.log n i = w₁.log n i ++ D ∧ ∀ x ∈ D, ∀ r, net.route n x.1 = some r → r.party = m →
        Answered w₁ w₂ n i x.1 x.2 r from both.2
  induction h with
  | refl => exact ⟨fun j waits => absurd waits (idle j), [], by simp, by simp⟩
  | @tail w w' before move ih =>
    obtain ⟨waits, D, log, answers⟩ := ih
    have kept : ∀ x ∈ D, ∀ r, net.route n x.1 = some r → r.party = m → Answered w₁ w' n i x.1 x.2 r := by
      intro x hx r routed party
      obtain ⟨j, L, result, called, later, ended, answer⟩ := answers x hx r routed party
      exact ⟨j, L, result, called.mono .refl (.single move), later, moves_ended move ended, answer⟩
    cases found : (w.part n).threads[i]? with
    | none =>
      obtain ⟨same, born⟩ := move.unborn found
      have empty : w'.log n i = w.log n i := by
        rw [log_absent found]
        cases found' : (w'.part n).threads[i]? with
        | none => exact log_absent found'
        | some t => rw [log_found found', born t found']
      exact ⟨by rw [same]; exact waits, D, by rw [empty, log], kept⟩
    | some t =>
      rw [log_found found] at log
      cases move.fate found with
      | still here same => exact ⟨by rw [same]; exact waits, D, by rw [log_found here, log], kept⟩
      | own t' D' here call grown unrouted free =>
        refine ⟨by rw [free]; simp, D ++ D', by rw [log_found here, grown, log, List.append_assoc], ?_⟩
        intro x hx r routed
        rcases List.mem_append.mp hx with hx | hx
        · exact kept x hx r routed
        · rw [unrouted x hx] at routed
          cases routed
      | called m' here free waiting =>
        refine ⟨?_, D, by rw [log_found here, log], kept⟩
        intro j same
        rw [waiting] at same
        cases same
        exact runs_threads before m
      | replied t' q r j L result here call grown routed waiting ended free =>
        refine ⟨by rw [free]; simp, D ++ [⟨q, r.reply result⟩],
          by rw [log_found here, grown, log, List.append_assoc], ?_⟩
        intro x hx r' routed' party
        rcases List.mem_append.mp hx with hx | hx
        · exact kept x hx r' routed' party
        · cases List.mem_singleton.mp hx
          rw [routed] at routed'
          cases routed'
          subst party
          exact ⟨j, L, result, ⟨w, before, .single move, waiting⟩, waits j waiting, ended, rfl⟩

theorem unborn_waits (h : Runs net w₁ w₂) (absent : (w₂.part n).threads[i]? = none) :
    w₂.waits n i = w₁.waits n i := by
  induction h with
  | refl => rfl
  | @tail w w' _ move ih =>
    have earlier : (w.part n).threads[i]? = none := by
      rw [List.getElem?_eq_none_iff] at absent ⊢
      exact Nat.le_trans (runs_threads (.single move) n) absent
    exact (move.unborn earlier).1.trans (ih earlier)

/-- An answer that is none of the new ones stood in the log before. -/
theorem split_earlier {α : Type*} {A B C D : List α} {x : α} (eq : A ++ x :: B = C ++ D) (old : x ∉ D) :
    ∃ B', C = A ++ x :: B' := by
  rcases List.append_eq_append_iff.mp eq with ⟨E, rfl, right⟩ | ⟨E, rfl, right⟩
  · cases E with
    | nil =>
      rw [List.nil_append] at right
      exact absurd (right ▸ List.mem_cons_self) old
    | cons y E =>
      obtain ⟨rfl, -⟩ := List.cons.inj right
      exact ⟨E, rfl⟩
  · exact absurd (right ▸ List.mem_append_right _ List.mem_cons_self) old

/-- A world at which the thread had this log and did not wait. -/
def Paused (w₁ w₂ : World net) (n : ι) (i : Nat) (A : Log (net.I n)) : Prop :=
  ∃ w, Runs net w₁ w ∧ Runs net w w₂ ∧ w.log n i = A ∧ w.waits n i = none

theorem Paused.later {w w' : World net} {A : Log (net.I n)} (h : Paused w₁ w n i A) (move : Moves w w') :
    Paused w₁ w' n i A := by
  obtain ⟨v, before, after, rest⟩ := h
  exact ⟨v, before, after.tail move, rest⟩

/-- The moment at which a question that stands for a call was reached. -/
theorem paused (h : Runs net w₁ w₂) {A B : Log (net.I n)} {x : Σ q, (net.I n).Answer q}
    (log : w₂.log n i = A ++ x :: B) (routed : net.route n x.1 ≠ none) (early : w₁.log n i <+: A)
    (idle : w₁.log n i = A → w₁.waits n i = none) : Paused w₁ w₂ n i A := by
  -- the moment of the present log is carried along, for the answer that comes next
  suffices all : ((w₁.log n i = w₂.log n i → w₁.waits n i = none) → Paused w₁ w₂ n i (w₂.log n i)) ∧
      ∀ A x B, w₂.log n i = A ++ x :: B → net.route n x.1 ≠ none → w₁.log n i <+: A →
        (w₁.log n i = A → w₁.waits n i = none) → Paused w₁ w₂ n i A from all.2 A x B log routed early idle
  clear log routed early idle
  induction h with
  | refl =>
    refine ⟨fun idle => ⟨w₁, .refl, .refl, rfl, idle rfl⟩, ?_⟩
    intro A x B log _ early _
    have short := early.length_le
    rw [log] at short
    simp only [List.length_append, List.length_cons] at short
    omega
  | @tail w w' before move ih =>
    obtain ⟨present, past⟩ := ih
    have here : w'.waits n i = none → Paused w₁ w' n i (w'.log n i) :=
      fun free => ⟨w', before.tail move, .refl, rfl, free⟩
    cases found : (w.part n).threads[i]? with
    | none =>
      obtain ⟨same, born⟩ := move.unborn found
      have empty : w'.log n i = [] := by
        cases found' : (w'.part n).threads[i]? with
        | none => exact log_absent found'
        | some t => rw [log_found found', born t found']
      constructor
      · intro idle
        have old : (w₁.part n).threads[i]? = none := by
          rw [List.getElem?_eq_none_iff] at found ⊢
          exact Nat.le_trans (runs_threads before n) found
        rw [empty] at idle
        exact here (same.trans ((unborn_waits before found).trans (idle (log_absent old))))
      · intro A x B log
        rw [empty] at log
        simp at log
    | some t =>
      rw [log_found found] at present past
      cases move.fate found with
      | still there same | called m' there free waiting =>
        rw [log_found there]
        exact ⟨fun idle => (present idle).later move,
          fun A x B log routed early idle => (past A x B log routed early idle).later move⟩
      | own t' D there call grown unrouted free =>
        refine ⟨fun _ => here free, ?_⟩
        intro A x B log routed early idle
        rw [log_found there, grown] at log
        obtain ⟨B', split⟩ := split_earlier log.symm (fun hx => routed (unrouted x hx))
        exact (past A x B' split routed early idle).later move
      | replied t' q r j L result there call grown routed' waiting ended free =>
        refine ⟨fun _ => here free, ?_⟩
        intro A x B log routed early idle
        rw [log_found there, grown] at log
        rcases List.eq_nil_or_concat B with rfl | ⟨B, y, rfl⟩
        · obtain ⟨same, -⟩ := List.append_inj' log rfl
          rw [same] at present
          exact (present idle).later move
        · rw [List.concat_eq_append, ← List.cons_append, ← List.append_assoc] at log
          obtain ⟨same, -⟩ := List.append_inj' log rfl
          exact (past A x B same routed early idle).later move

end Answers

end Interleaving
