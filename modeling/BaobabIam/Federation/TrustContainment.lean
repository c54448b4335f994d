import BaobabIam.Federation.TrustProvenance

/-! Emergency containment. No record is updated later than the watermark: a
proposal is stored with a reading that is not before its update, and a
containment carries a reading of its own. So a containment at or after the
watermark always passes the checks on times, in every state that a run reaches. -/
namespace Federation.TrustLedger

open Wire Interleaving

/-- The reading that a transaction recorded is not after the watermark of any
later point. -/
theorem valid_recorded {U T : Trace} {e : Entry system} {r : Time} (h : Valid Step T) (sub : U ++ [e] <+: T)
    (ticks : Ticks e.before.clock r) (after : e.after.clock = tick e.before.clock r) :
    ∃ w, watermark (last T).clock = some w ∧ r.ns ≤ w.ns := by
  refine valid_later h sub r.utc ?_
  rw [last_append, after]
  exact watermark_tick _ ticks.representable_utc

theorem valid_updated {T : Trace} (h : Valid Step T) (order : ∀ e ∈ T, InOrder e.finish) {log : Records}
    (rep : Represents (last T) log) {id : Text} {c : CommittedTrust} (member : c ∈ log id) :
    ∃ w, watermark (last T).clock = some w ∧ c.snapshot.trust.updatedAt.ns ≤ w.ns := by
  obtain ⟨n, hn⟩ := List.getElem?_of_mem member
  obtain ⟨U, e, log₀, sub, -, -, commits⟩ := valid_commits h rep hn
  cases commits with
  | approval pid digest p q r step commit same =>
    obtain ⟨V, proposing, p', r', earlier, made, -, decided, -⟩ :=
      step.origin (valid_known ((h.restrict sub).snoc_inv).1)
    have inside : V ++ [proposing] <+: T := earlier.trans ((List.prefix_append _ _).trans sub)
    obtain ⟨w, stored, le⟩ := valid_recorded h inside made.ticks (by rw [made.after]; rfl)
    refine ⟨w, stored, ?_⟩
    have snapshot : (approvedTrust q).snapshot = p'.snapshot := by
      change q.snapshot = p'.snapshot
      rw [decided]
    rw [snapshot]
    exact (made.updated (order _ (inside.subset (by simp)))).trans le
  | containment revision status c₀ value r step =>
    obtain ⟨t, drawn, principal, written, -, before, -⟩ := step.written
    obtain ⟨w, stored, le⟩ := valid_recorded h sub step.ticks (by rw [step.after]; rfl)
    refine ⟨w, stored, ?_⟩
    have updated : c.snapshot.trust.updatedAt = t := by rw [written]; rfl
    rw [updated]
    exact (before (order _ (sub.subset (by simp)))).trans le

/-- In every state that a run reaches, a containment of the current record by an
accepted actor commits, at any clock that is not behind the watermark. -/
theorem containment_possible (schedule : List (Action system)) (clocked : Clocked (exec system schedule))
    (id : Text) (c : CommittedTrust) (status : TrustStatus) (w limit : Int) (oracle : Oracle ports)
    (current : ((exec system schedule).store.trusts.get id).bind decodeAuthority = some c)
    (live : c.snapshot.trust.status ≠ .revoked) (room : c.snapshot.trust.revision ≠ 0xFFFFFFFFFFFFFFFF)
    (target : status = .revoked ∨ status = .suspended ∧ c.snapshot.trust.status = .active)
    (clock : ∀ stored, watermark (exec system schedule).store.clock = some stored → stored.ns ≤ w)
    (accepts : ∀ L q, AnsweredBy oracle L → Accepts w limit L q (oracle L q)) :
    ∃ (n : Nat) (L : Log ports) (c' : CommittedTrust),
      (exec system (thenAlone schedule (.contain id c.snapshot.approvedRevision status) n oracle)).threads[
        (exec system schedule).threads.length]? =
        some ⟨.contain id c.snapshot.approvedRevision status, L, .ret ()⟩ ∧
      ((exec system (thenAlone schedule (.contain id c.snapshot.approvedRevision status) n
        oracle)).store.trusts.get id).bind decodeAuthority = some c' ∧
      c'.snapshot.trust.status = status ∧
      c'.snapshot.trust.revision = c.snapshot.trust.revision + 1 := by
  obtain ⟨valid, log, rep⟩ := exec_represents schedule
  rw [exec_store] at rep current clock
  obtain ⟨raw, found, decoded⟩ := Option.bind_eq_some_iff.mp current
  have last_record := rep.current_some ⟨raw, found, decoded⟩
  obtain ⟨mark, stored, updated⟩ :=
    valid_updated valid (exec_inOrder clocked) rep (List.mem_of_getLast? last_record)
  have behind : Behind (last (exec system schedule).trace).clock w [] := by
    intro raw found
    obtain ⟨raw', found', parsed⟩ := Option.bind_eq_some_iff.mp stored
    rw [found] at found'
    cases found'
    exact ⟨mark, parsed, .inl (clock mark stored)⟩
  have admitted : ∀ i logs, Admits system oracle i logs := fun _ _ _ _ _ _ _ _ => rfl
  obtain ⟨n, L, r, threads, -, rfl, c', committed, readable, becomes, revision⟩ := solo_call accepts schedule
    (admitted _ _) (.contain id c.snapshot.approvedRevision status) _
    (pass_contain (fun _ _ _ h => h) rep last_record behind live room target
      (updated.trans (clock mark stored)))
  refine ⟨n, L, c', by rw [threads]; exact List.getElem?_concat_length, ?_, becomes, revision⟩
  rw [exec_store, committed]
  exact readable.decodes

theorem containment_possible_sample : ∃ (schedule : List (Action system)) (c c' : CommittedTrust) (n : Nat),
    Clocked (exec system schedule) ∧
    ((exec system schedule).store.trusts.get Sample.trustID).bind decodeAuthority = some c ∧
    c.snapshot.trust.status = .active ∧
    ((exec system (thenAlone schedule (.contain Sample.trustID c.snapshot.approvedRevision .revoked) n
      (Sample.oracle Sample.reading []))).store.trusts.get Sample.trustID).bind decodeAuthority = some c' ∧
    c'.snapshot.trust.status = .revoked := by
  obtain ⟨-, found, mark, -, -, -, clocked, -⟩ := Sample.runs
  obtain ⟨c, current, same⟩ := Option.map_eq_some_iff.mp found
  have active : c.snapshot.trust.status = .active := by rw [same]; rfl
  have clock : ∀ w, watermark (exec system Sample.activated).store.clock = some w → w.ns ≤ Time.second := by
    intro w stored
    rw [stored] at mark
    exact (Option.some.inj mark).le
  obtain ⟨n, L, c', -, committed, revoked, -⟩ :=
    containment_possible Sample.activated clocked Sample.trustID c .revoked
    Time.second (Time.second + 1) (Sample.oracle Sample.reading []) current (by rw [active]; decide)
    (by rw [same]; decide) (.inl rfl) clock (Sample.oracle_accepts Sample.reading [])
  exact ⟨Sample.activated, c, c', n, clocked, current, active, committed, revoked⟩

end Federation.TrustLedger
