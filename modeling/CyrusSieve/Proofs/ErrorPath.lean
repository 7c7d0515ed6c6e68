import CyrusSieve.Proofs.ActionLoop

/-!
# `do_sieve_error`, activation by activation

Four facts about `do_sieve_error` carry the dispatcher's laws. Each is proved the same way:
once for an activation that finishes (`errorStep_done`), once for one that re-enters
(`errorStep_again`), and then for the whole call by `doSieveError_induction`.

* It keeps implicitly exactly once if it was entered with the implicit keep on, and never
  otherwise (`doSieveError_implicitKeeps`). A re-entry after a failed notification keeps
  the flag; a re-entry after a failed keep has just made the one call and clears it.
* It returns `SIEVE_OK` exactly when it was entered with `SIEVE_OK`, every active
  notification is sent, and the implicit keep, if it is on, succeeds (`doSieveError_ok`).
  Statuses only ever accumulate with `|=`, so a re-entry, which always follows a failure,
  can never produce `SIEVE_OK` again.
* Its calls are the pending notifications, in list order, followed by `execute_err`
  calls and the implicit keep (`doSieveError_calls`): the notify list is
  walked in the first activation that walks it and is `NULL` in every later one.
* With `execute_err` registered, it calls it at least once exactly when it fails
  (`doSieveError_reports`): a finishing activation reports exactly when it fails, and a
  re-entering one hands a failure to an activation that reports it.

The trace it writes is read off the same two activation lemmas: each activation appends
its failure line, and the last one `Kept` when it made the implicit keep
(`doSieveError_trace`).
-/

namespace CyrusSieve

variable {env : Env}

/-- Calls that come after the notify block: `execute_err` and the implicit keep. -/
def Quiet (cs : List Call) : Prop := ∀ c ∈ cs, c.isExecuteErr = true ∨ c.isImplicitKeep = true

theorem Quiet.append {cs cs' : List Call} (h : Quiet cs) (h' : Quiet cs') : Quiet (cs ++ cs') := by
  intro c hc
  rcases List.mem_append.mp hc with hc | hc
  · exact h c hc
  · exact h' c hc

theorem quiet_nil : Quiet [] := by simp [Quiet]

/-- The notify calls the loop makes over `N` with the trace at `s`: one per active entry
whose context `send_notify_callback` can build, in list order. -/
def notifyCalls (env : Env) (s : List Char) (N : List NotifyEntry) : List Call :=
  (N.filter (·.isactive)).filterMap fun n => (notifyContext env.interp env.msg n s).map .notify

/-- The notifications an activation still has to send. -/
def pendingCalls (env : Env) (a : ErrorArgs) : List Call :=
  match a.notifyList, env.interp.notify with
  | some N, true => notifyCalls env a.traceFailure.actionsString N
  | _, _ => []

/-- Every active entry of the list an activation would walk is sent. -/
def notifyOk (env : Env) : Option (List NotifyEntry) → Bool
  | some N => !env.interp.notify || allSent env.host 0 N
  | none => true

/-- What `do_sieve_error` needs to return `SIEVE_OK`. -/
def ErrorArgs.good (env : Env) (a : ErrorArgs) : Prop :=
  a.ret = sieveOk ∧ notifyOk env a.notifyList = true ∧
    (a.implicitKeep = true → env.host.keep.code = sieveOk)

/-! ## The notify loop -/

theorem notifyContext_eq_none {n : NotifyEntry} {s : List Char} :
    notifyContext env.interp env.msg n s = none ↔ n.complete = false := by
  rcases n with ⟨_, m, o, p, msg, _⟩
  cases m <;> cases o <;> cases p <;> cases msg <;> simp [notifyContext, NotifyEntry.complete]

theorem notifyOne_ret {j : Nat} {n : NotifyEntry} {acc : NotifyAcc} :
    (notifyOne env j n acc).ret = sieveOk ↔ acc.ret = sieveOk ∧ n.sent env.host j = true := by
  unfold notifyOne NotifyEntry.sent
  cases h : notifyContext env.interp env.msg n acc.st.actionsString
  · simp [or_eq_sieveOk, notifyContext_eq_none.mp h]
  · have : n.complete = true := Bool.not_eq_false _ |>.mp fun hc => by
      rw [← @notifyContext_eq_none env n acc.st.actionsString, h] at hc
      cases hc
    simp [or_eq_sieveOk, this]

theorem notifyOne_st {j : Nat} {n : NotifyEntry} {acc : NotifyAcc} :
    (notifyOne env j n acc).st = { acc.st with calls := acc.st.calls ++
      ((notifyContext env.interp env.msg n acc.st.actionsString).map .notify).toList } := by
  unfold notifyOne
  cases notifyContext env.interp env.msg n acc.st.actionsString <;> simp [St.call]

theorem notifyOne_notifyRet {j : Nat} {n : NotifyEntry} {acc : NotifyAcc} :
    (notifyOne env j n acc).notifyRet ≠ sieveOk → (notifyOne env j n acc).ret ≠ sieveOk := by
  unfold notifyOne
  split <;> exact fun h h' => h (or_eq_sieveOk.mp h').2

theorem notifyLoop_st : ∀ {j : Nat} {N : List NotifyEntry} {acc : NotifyAcc},
    (notifyLoop env j N acc).st =
      { acc.st with calls := acc.st.calls ++ notifyCalls env acc.st.actionsString N }
  | _, [], _ => by simp [notifyLoop, notifyCalls]
  | j, n :: N, acc => by
    rw [notifyLoop, notifyLoop_st]
    by_cases ha : n.isactive <;>
      simp [ha, notifyOne_st, notifyCalls, List.filter_cons, List.filterMap_cons]
    cases notifyContext env.interp env.msg n acc.st.actionsString <;> simp

theorem notifyLoop_ret : ∀ {j : Nat} {N : List NotifyEntry} {acc : NotifyAcc},
    (notifyLoop env j N acc).ret = sieveOk ↔ acc.ret = sieveOk ∧ allSent env.host j N = true
  | _, [], _ => by simp [notifyLoop, allSent]
  | j, n :: N, acc => by
    rw [notifyLoop, notifyLoop_ret]
    by_cases ha : n.isactive <;> simp [ha, allSent, notifyOne_ret, and_assoc]

theorem notifyLoop_notifyRet : ∀ {j : Nat} {N : List NotifyEntry} {acc : NotifyAcc},
    (acc.notifyRet ≠ sieveOk → acc.ret ≠ sieveOk) →
    (notifyLoop env j N acc).notifyRet ≠ sieveOk → (notifyLoop env j N acc).ret ≠ sieveOk
  | _, [], _, h => h
  | _, n :: _, _, h => by
    rw [notifyLoop]
    refine notifyLoop_notifyRet ?_
    split
    · exact notifyOne_notifyRet
    · exact h

/-! ## One activation -/

theorem reportError_spec (a : ErrorArgs) :
    ((reportError env a).1 = sieveOk ↔ a.ret = sieveOk) ∧
    ∃ cs, (reportError env a).2.calls = a.st.calls ++ cs ∧ Quiet cs ∧
      cs.countP Call.isImplicitKeep = 0 ∧
      cs.countP Call.isExecuteErr = if a.ret ≠ sieveOk ∧ env.interp.executeErr = true then 1 else 0 := by
  unfold reportError
  split
  · next h =>
    refine ⟨by simp [or_eq_sieveOk, h.1],
      [.executeErr (errorMessage a.lastaction a.st.lastitem a.errmsg a.ret)], by simp, ?_,
      by simp [Call.isImplicitKeep], by simp [h, Call.isExecuteErr]⟩
    simp [Quiet, Call.isExecuteErr]
  · next h =>
    exact ⟨Iff.rfl, [], by simp, quiet_nil, rfl, by simp [h]⟩

@[simp] theorem reportError_actionsString (a : ErrorArgs) :
    (reportError env a).2.actionsString = a.st.actionsString := by
  unfold reportError
  split <;> rfl

theorem ErrorArgs.traceFailure_actionsString (a : ErrorArgs) :
    a.traceFailure.actionsString = appendAll a.st.actionsString a.failureLines := by
  unfold ErrorArgs.traceFailure ErrorArgs.failureLines
  split <;> simp

/-- The part after the notify block either finishes, having made the implicit keep exactly
when it was on and written `Kept` after it, or re-enters after a failed keep with the
implicit keep off and the trace as it was. -/
theorem afterNotify_cases (env : Env) (a : ErrorArgs) :
    (∃ ret st cs, afterNotify env a = .done ret st ∧ st.calls = a.st.calls ++ cs ∧ Quiet cs ∧
      cs.countP Call.isImplicitKeep = (if a.implicitKeep then 1 else 0) ∧
      cs.countP Call.isExecuteErr = (if ret ≠ sieveOk ∧ env.interp.executeErr = true then 1 else 0) ∧
      (ret = sieveOk ↔ a.ret = sieveOk) ∧ (a.implicitKeep = true → env.host.keep.code = sieveOk) ∧
      st.actionsString = appendAll a.st.actionsString
        (if a.implicitKeep then ["Kept\n".toList] else [])) ∨
    (∃ a' cs, afterNotify env a = .again a' ∧ a.implicitKeep = true ∧
      env.host.keep.code ≠ sieveOk ∧ a'.implicitKeep = false ∧ a'.notifyList = a.notifyList ∧
      a'.ret ≠ sieveOk ∧ a'.st.calls = a.st.calls ++ cs ∧ Quiet cs ∧
      cs.countP Call.isImplicitKeep = 1 ∧ a'.st.actionsString = a.st.actionsString) := by
  obtain ⟨hr, cs, hcs, hq, hk, he⟩ := @reportError_spec env a
  have hki : Quiet [Call.implicitKeep (implicitKeepContext env)] := by
    simp [Quiet, Call.isImplicitKeep]
  unfold afterNotify
  dsimp only
  by_cases hik : a.implicitKeep
  · by_cases hok : env.host.keep.code = sieveOk
    · refine .inl ⟨(reportError env a).1, ((reportError env a).2.call
        (.implicitKeep (implicitKeepContext env))).append "Kept\n".toList,
        cs ++ [.implicitKeep (implicitKeepContext env)], by simp [hik, hok],
        by simp [hcs], hq.append hki, by simp [hk, hik, Call.isImplicitKeep],
        by simp [he, hr, Call.isExecuteErr], hr, fun _ => hok, by simp [hik]⟩
    · refine .inr ⟨⟨(reportError env a).1 ||| env.host.keep.code, a.notifyList, .keep, false,
        env.host.keep.errmsg.getD a.errmsg,
        (reportError env a).2.call (.implicitKeep (implicitKeepContext env))⟩,
        cs ++ [.implicitKeep (implicitKeepContext env)], by simp [hik, hok], hik, hok,
        rfl, rfl, fun h => hok (or_eq_sieveOk.mp h).2, by simp [hcs], hq.append hki,
        by simp [hk, Call.isImplicitKeep], by simp⟩
  · exact .inl ⟨(reportError env a).1, (reportError env a).2, cs, by simp [hik], hcs, hq,
      by simp [hk, hik], by simp [he, hr], hr, by simp [hik], by simp [hik]⟩

/-- No activation with this notify list has notifications left to send. -/
def NoneLeft (env : Env) (a : ErrorArgs) : Prop :=
  ∀ b : ErrorArgs, b.notifyList = a.notifyList → pendingCalls env b = []

theorem noneLeft_of_none {a : ErrorArgs} (h : a.notifyList = none) : NoneLeft env a := by
  intro b hb
  simp [pendingCalls, hb, h]

@[simp] theorem ErrorArgs.traceFailure_calls (a : ErrorArgs) : a.traceFailure.calls = a.st.calls := by
  unfold ErrorArgs.traceFailure
  split <;> rfl

/-- An activation either walks the notify list and re-enters because the last notification
failed, or hands over to `afterNotify`; either way after writing its failure line and making
the pending notifications. -/
theorem errorStep_cases (env : Env) (a : ErrorArgs) :
    (∃ a', errorStep env a = .again a' ∧ a'.implicitKeep = a.implicitKeep ∧
      a'.st.calls = a.st.calls ++ pendingCalls env a ∧ NoneLeft env a' ∧
      a'.ret ≠ sieveOk ∧ ¬(a.ret = sieveOk ∧ notifyOk env a.notifyList = true) ∧
      a'.st.actionsString = a.traceFailure.actionsString) ∨
    (∃ a₁, errorStep env a = afterNotify env a₁ ∧ a₁.implicitKeep = a.implicitKeep ∧
      a₁.st.calls = a.st.calls ++ pendingCalls env a ∧ NoneLeft env a₁ ∧
      (a₁.ret = sieveOk ↔ a.ret = sieveOk ∧ notifyOk env a.notifyList = true) ∧
      a₁.st.actionsString = a.traceFailure.actionsString) := by
  unfold errorStep
  split
  · next N hn hnot =>
    dsimp only
    have hpend : pendingCalls env a = notifyCalls env a.traceFailure.actionsString N := by
      simp [pendingCalls, hn, hnot]
    have hret := @notifyLoop_ret env 0 N ⟨a.ret, a.lastaction, a.errmsg, sieveOk, a.traceFailure⟩
    have hok : notifyOk env a.notifyList = allSent env.host 0 N := by simp [notifyOk, hn, hnot]
    split
    · next hfail =>
      have hne := notifyLoop_notifyRet (fun h => absurd rfl h) hfail
      refine .inl ⟨_, rfl, rfl, by simp [notifyLoop_st, hpend], noneLeft_of_none rfl, hne, ?_,
        by simp [notifyLoop_st]⟩
      rw [hok, ← hret]
      exact hne
    · exact .inr ⟨_, rfl, rfl, by simp [notifyLoop_st, hpend], noneLeft_of_none rfl,
        by rw [hok, ← hret], by simp [notifyLoop_st]⟩
  · next hn =>
    have hpend : NoneLeft env a := by
      intro b hb
      unfold pendingCalls
      split
      · next N' h₁ h₂ => exact absurd (hb ▸ h₁) fun h => hn N' h h₂
      · rfl
    have hok : notifyOk env a.notifyList = true := by
      unfold notifyOk
      split
      · next N h => cases hnot : env.interp.notify <;> simp_all
      · rfl
    exact .inr ⟨_, rfl, rfl, by simp [hpend a rfl], hpend, by simp [hok], rfl⟩

/-- An activation that finishes: after the pending notifications it calls `execute_err`
once if it fails, and keeps once if the implicit keep is on; it fails exactly when it is not
good; and it writes its failure line, then `Kept` if the implicit keep is on. -/
theorem errorStep_done {a : ErrorArgs} {ret : BitVec 32} {st : St}
    (h : errorStep env a = .done ret st) :
    ∃ cs, st.calls = a.st.calls ++ pendingCalls env a ++ cs ∧ Quiet cs ∧
      cs.countP Call.isImplicitKeep = (if a.implicitKeep then 1 else 0) ∧
      cs.countP Call.isExecuteErr = (if ret ≠ sieveOk ∧ env.interp.executeErr = true then 1 else 0) ∧
      (ret = sieveOk ↔ a.good env) ∧
      st.actionsString = appendAll a.st.actionsString
        (a.failureLines ++ if a.implicitKeep then ["Kept\n".toList] else []) := by
  rcases errorStep_cases env a with ⟨a', h', -⟩ | ⟨a₁, h', hk, hc, -, hr, ht⟩
  · rw [h] at h'; cases h'
  · rw [h'] at h
    rcases afterNotify_cases env a₁ with ⟨_, _, cs, h'', hc', hq, hi, he, hr', hko, ht'⟩ |
        ⟨_, _, h'', -⟩
    · rw [h] at h''
      cases h''
      refine ⟨cs, by rw [hc', hc], hq, hk ▸ hi, he, ?_, ?_⟩
      · rw [hr', hr, ErrorArgs.good, ← hk, ← and_assoc, and_iff_left hko]
      · rw [ht', ht, hk, ErrorArgs.traceFailure_actionsString, appendAll_append]
    · rw [h] at h''; cases h''

/-- An activation that re-enters does so after a failure, into a failure, with no
notifications left; it has made the pending ones and then calls that include the implicit
keep exactly when it turned the implicit keep off. -/
theorem errorStep_again {a a' : ErrorArgs} (h : errorStep env a = .again a') :
    ¬a.good env ∧ a'.ret ≠ sieveOk ∧ pendingCalls env a' = [] ∧
    a'.st.actionsString = appendAll a.st.actionsString a.failureLines ∧
    ∃ cs, a'.st.calls = a.st.calls ++ pendingCalls env a ++ cs ∧ Quiet cs ∧
      cs.countP Call.isImplicitKeep + (if a'.implicitKeep then 1 else 0) =
        (if a.implicitKeep then 1 else 0) := by
  rcases errorStep_cases env a with ⟨b, h', hk, hc, hnl, hne, hn, ht⟩ |
      ⟨a₁, h', hk, hc, hnl, -, ht⟩
  · rw [h] at h'
    cases h'
    exact ⟨fun g => hn ⟨g.1, g.2.1⟩, hne, hnl _ rfl, ht.trans (ErrorArgs.traceFailure_actionsString a),
      [], by simp [hc], quiet_nil, by simp [hk]⟩
  · rw [h'] at h
    rcases afterNotify_cases env a₁ with ⟨_, _, _, h'', -⟩ |
        ⟨_, cs, h'', hik, hko, hk', hl, hne, hc', hq, hi, ht'⟩
    · rw [h] at h''; cases h''
    · rw [h] at h''
      cases h''
      exact ⟨fun g => hko (g.2.2 (hk ▸ hik)), hne, hnl _ hl,
        by rw [ht', ht, ErrorArgs.traceFailure_actionsString], cs, by rw [hc', hc], hq,
        by simp [hi, hk', ← hk, hik]⟩

/-- Induction over the activations of one `do_sieve_error` call. -/
theorem doSieveError_induction {motive : ErrorArgs → BitVec 32 × St → Prop}
    (done : ∀ a ret st, errorStep env a = .done ret st → motive a (ret, st))
    (again : ∀ a a' r, errorStep env a = .again a' → motive a' r → motive a r) :
    ∀ a, motive a (doSieveError env a) := by
  intro a
  obtain ⟨m, hm⟩ : ∃ m, a.measure env = m := ⟨_, rfl⟩
  induction m using Nat.strong_induction_on generalizing a with
  | _ m ih =>
    cases hs : errorStep env a with
    | done ret st => rw [doSieveError_of_done hs]; exact done a ret st hs
    | again a' =>
      rw [doSieveError_of_again hs]
      exact again a a' _ hs (ih _ (hm ▸ errorStep_measure hs) a' rfl)

/-! ## The facts -/

theorem pendingCalls_isNotify (a : ErrorArgs) : ∀ c ∈ pendingCalls env a, c.isNotify = true := by
  unfold pendingCalls notifyCalls
  split
  · simp only [List.mem_filterMap, Option.map_eq_some']
    rintro _ ⟨_, _, _, _, rfl⟩
    rfl
  · simp

theorem countP_pendingCalls {p : Call → Bool} (hp : ∀ c, c.isNotify = true → p c = false)
    (a : ErrorArgs) : (pendingCalls env a).countP p = 0 :=
  List.countP_eq_zero.mpr fun c hc => by simp [hp c (pendingCalls_isNotify a c hc)]

theorem isImplicitKeep_of_isNotify (c : Call) (h : c.isNotify = true) : c.isImplicitKeep = false := by
  cases c <;> first | rfl | cases h

theorem isExecuteErr_of_isNotify (c : Call) (h : c.isNotify = true) : c.isExecuteErr = false := by
  cases c <;> first | rfl | cases h

/-- `do_sieve_error` keeps implicitly once when entered with the implicit keep on, and
otherwise never. -/
theorem doSieveError_implicitKeeps (a : ErrorArgs) :
    (doSieveError env a).2.calls.countP Call.isImplicitKeep =
      a.st.calls.countP Call.isImplicitKeep + (if a.implicitKeep then 1 else 0) := by
  have hp := @countP_pendingCalls env _ isImplicitKeep_of_isNotify
  refine doSieveError_induction (motive := fun a r =>
    r.2.calls.countP Call.isImplicitKeep =
      a.st.calls.countP Call.isImplicitKeep + (if a.implicitKeep then 1 else 0)) ?_ ?_ a
  · intro a ret st hs
    obtain ⟨cs, hc, -, hi, -⟩ := errorStep_done hs
    simp [hc, hi, hp]
  · intro a a' r hs ih
    obtain ⟨-, -, -, -, cs, hc, -, hi⟩ := errorStep_again hs
    rw [ih, hc, List.countP_append, List.countP_append, hp]
    omega

/-- `do_sieve_error` returns `SIEVE_OK` exactly when entered with `SIEVE_OK`, with every
active notification sent, and with a successful implicit keep if it is on. -/
theorem doSieveError_ok (a : ErrorArgs) : (doSieveError env a).1 = sieveOk ↔ a.good env := by
  refine doSieveError_induction (motive := fun a r => r.1 = sieveOk ↔ a.good env) ?_ ?_ a
  · intro a ret st hs
    obtain ⟨-, -, -, -, -, hr, -⟩ := errorStep_done hs
    exact hr
  · intro a a' r hs ih
    obtain ⟨hbad, hne, -⟩ := errorStep_again hs
    exact ih.trans (iff_of_false (fun g => hne g.1) hbad)

/-- The calls of `do_sieve_error`: the pending notifications, then `execute_err` calls and
the implicit keep. -/
theorem doSieveError_calls (a : ErrorArgs) :
    ∃ post, (doSieveError env a).2.calls = a.st.calls ++ pendingCalls env a ++ post ∧ Quiet post := by
  refine doSieveError_induction (motive := fun a r =>
    ∃ post, r.2.calls = a.st.calls ++ pendingCalls env a ++ post ∧ Quiet post) ?_ ?_ a
  · intro a ret st hs
    obtain ⟨cs, hc, hq, -⟩ := errorStep_done hs
    exact ⟨cs, hc, hq⟩
  · rintro a a' r hs ⟨post, hr, hq⟩
    obtain ⟨-, -, hp, -, cs, hc, hq', -⟩ := errorStep_again hs
    exact ⟨cs ++ post, by simp [hr, hc, hp], hq'.append hq⟩

/-- With `execute_err` registered, `do_sieve_error` calls it at least once exactly when it
is not good, that is, when it fails. -/
theorem doSieveError_reports (he : env.interp.executeErr = true) (a : ErrorArgs) :
    a.st.calls.countP Call.isExecuteErr < (doSieveError env a).2.calls.countP Call.isExecuteErr ↔
      ¬a.good env := by
  have hp := @countP_pendingCalls env _ isExecuteErr_of_isNotify
  refine doSieveError_induction (motive := fun a r =>
    a.st.calls.countP Call.isExecuteErr < r.2.calls.countP Call.isExecuteErr ↔ ¬a.good env) ?_ ?_ a
  · intro a ret st hs
    obtain ⟨cs, hc, -, -, hx, hr, -⟩ := errorStep_done hs
    rw [hc, List.countP_append, List.countP_append, hp, hx, ← hr]
    by_cases h : ret = sieveOk <;> simp [h, he]
  · intro a a' r hs ih
    obtain ⟨hbad, hne, -, -, cs, hc, -⟩ := errorStep_again hs
    have hle : a.st.calls.countP Call.isExecuteErr ≤ a'.st.calls.countP Call.isExecuteErr := by
      simp [hc, List.countP_append]
    exact iff_of_true (lt_of_le_of_lt hle (ih.mpr fun g => hne g.1)) hbad

/-- `do_sieve_error`, on any budget, leaves the trace it was given with its lines appended. -/
theorem activations_trace : ∀ (n : Nat) (a : ErrorArgs),
    (activations env n a).2.actionsString = appendAll a.st.actionsString (errorLines env n a)
  | 0, _ => rfl
  | n + 1, a => by
    rw [activations, errorLines]
    cases hs : errorStep env a with
    | done ret st =>
      obtain ⟨-, -, -, -, -, -, ht⟩ := errorStep_done hs
      exact ht
    | again a' =>
      dsimp only
      rw [activations_trace n a', (errorStep_again hs).2.2.2.1, appendAll_append]

theorem doSieveError_trace (a : ErrorArgs) :
    (doSieveError env a).2.actionsString = appendAll a.st.actionsString (doSieveErrorLines env a) :=
  activations_trace _ a

end CyrusSieve
