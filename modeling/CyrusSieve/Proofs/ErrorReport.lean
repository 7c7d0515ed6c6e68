import CyrusSieve.Proofs.Execute

/-!
# What `execute_err` is told

`do_sieve_error` hands every failed run to `execute_err`, with a line naming the last action
attempted and, when `interp->lastitem` is set, the item it acted on. On the runs that reach
`do_sieve_error` this reports exactly the failing ones (`sieveExecuteBytecode_reports`): a
re-entry always follows a failure and reports it itself, and a finishing activation reports
exactly when it fails.

Two paths escape it. `do_action_list` returns `SIEVE_INTERNAL_ERROR` straight to the caller
when an action's callback is missing, so that failure is never reported. And `lastitem` lives
in the interpreter, not in the run: an activation reports whatever the last action of any
earlier run on the same interpreter left there, when no action of its own run has replaced it.

A run can report twice (`sieveExecuteBytecode_calls`). A notification that fails re-enters
`do_sieve_error` with the implicit keep still on; that activation reports and then keeps, and
when the keep fails too, the next activation reports again. The calls still to come after an
activation's notifications (`ErrorArgs.quietCalls`) only move from one activation to the
next, so they are read off the arguments of the first one, and the host sees, after the
actions and the notifications, a report, the implicit keep, a second report, and the `track`
calls, each only under its own condition.

`sieveExecuteBytecode_lastitem` says exactly what a run leaves in `lastitem`. Only the cases of
the action loop write it, each dispatched action its own item (`dispatch_lastitem`), and
nothing after the loop touches it (`doSieveError_lastitem`). So it is the item of the last
action the walk dispatched that has one, or, when there is none, what the previous run left.
-/

namespace CyrusSieve

theorem countP_executeErr_of_actions {cs : List Call} (h : ∀ c ∈ cs, c.isAction) :
    cs.countP Call.isExecuteErr = 0 := List.countP_eq_zero.mpr fun c hc => by
  have := h c hc
  cases c <;> first | exact Bool.false_ne_true | cases this

theorem trackDuplicates_executeErrs (interp : Interp) (d : List DuptrackEntry)
    (r : BitVec 32 × St) : (trackDuplicates interp d r).2.calls.countP Call.isExecuteErr =
      r.2.calls.countP Call.isExecuteErr := by
  have h : (trackCalls d).countP Call.isExecuteErr = 0 := List.countP_eq_zero.mpr fun c hc => by
    have := trackCalls_isTrack d c hc
    cases c <;> first | exact Bool.false_ne_true | cases this
  rw [trackDuplicates_calls, List.countP_append]
  split <;> simp [h]

/-- With `execute_err` and a callback for every action of the list, `execute_err` is called
exactly in the runs that fail. -/
theorem sieveExecuteBytecode_reports (interp : Interp) (msg : Message) (host : Host) (ev : Eval)
    (he : interp.executeErr = true) (hh : ∀ a ∈ ev.actions, interp.handles a.act = true) :
    0 < (sieveExecuteBytecode interp msg host ev).2.calls.countP Call.isExecuteErr ↔
      (sieveExecuteBytecode interp msg host ev).1 ≠ sieveOk := by
  rcases sieveExecuteBytecode_cases interp msg host ev with ⟨-, -, -, -, ⟨a, ha, hu⟩, -⟩ |
      ⟨env, a, h, e⟩
  · simp [hh a ha] at hu
  · have hr := @doSieveError_reports env (e.interp_eq ▸ he) a
    rw [countP_executeErr_of_actions e.calls] at hr
    rw [h, trackDuplicates_executeErrs, trackDuplicates_fst, hr, Ne, doSieveError_ok]

theorem sieveExecuteBytecode_reports_keepFails :
    everyCallback.executeErr = true ∧
    (∀ a ∈ (⟨0, none, [], [], [], []⟩ : Eval).actions, everyCallback.handles a.act = true) ∧
    (0 < (sieveExecuteBytecode everyCallback blankMessage { hostOk with keep := ⟨sieveFail, none⟩ }
        ⟨0, none, [], [], [], []⟩).2.calls.countP Call.isExecuteErr ↔
      (sieveExecuteBytecode everyCallback blankMessage { hostOk with keep := ⟨sieveFail, none⟩ }
        ⟨0, none, [], [], [], []⟩).1 ≠ sieveOk) :=
  ⟨rfl, by decide, sieveExecuteBytecode_reports everyCallback blankMessage
    { hostOk with keep := ⟨sieveFail, none⟩ } ⟨0, none, [], [], [], []⟩ rfl (by decide)⟩

/-- A `reject` the interpreter has no callback for ends the run with `SIEVE_INTERNAL_ERROR`,
and `execute_err` is never called. -/
theorem unregistered_reject_unreported :
    sieveExecuteBytecode { everyCallback with reject := false } blankMessage hostOk
        ⟨0, none, [], [⟨.reject "spam", true⟩], [], []⟩ =
      (sieveInternalError, ⟨[], "Action(s) taken:\n".toList, none⟩) := by
  decide

/-! ## The calls after the notifications -/

section Quiet

variable {env : Env}

/-- The calls `do_sieve_error` makes after the notify block: with `execute_err` registered, a
report if it was entered with a failure or a notification failed; the implicit keep if it is
on; and, with `execute_err`, a second report if that keep fails. `m₁` and `m₂` are the texts
of the reports. -/
def ErrorArgs.quietCalls (env : Env) (a : ErrorArgs) (m₁ m₂ : String) : List Call :=
  (if env.interp.executeErr = true ∧ ¬(a.ret = sieveOk ∧ notifyOk env a.notifyList = true) then
    [.executeErr m₁] else []) ++
    (if a.implicitKeep then [.implicitKeep (implicitKeepContext env)] else []) ++
    if env.interp.executeErr = true ∧ a.implicitKeep = true ∧ env.host.keep.code ≠ sieveOk then
      [.executeErr m₂] else []

theorem reportError_calls (a : ErrorArgs) :
    (reportError env a).2.calls = a.st.calls ++
      if a.ret ≠ sieveOk ∧ env.interp.executeErr = true then
        [.executeErr (errorMessage a.lastaction a.st.lastitem a.errmsg a.ret)] else [] := by
  unfold reportError
  split <;> simp_all [St.call]

/-- After `execute_err`, the part after the notify block calls the implicit keep when it is
on; a failed keep re-enters. -/
theorem afterNotify_calls (a : ErrorArgs) :
    (∀ ret st, afterNotify env a = .done ret st →
      st.calls = (reportError env a).2.calls ++
        if a.implicitKeep then [.implicitKeep (implicitKeepContext env)] else []) ∧
    (∀ a', afterNotify env a = .again a' →
      a'.st.calls = (reportError env a).2.calls ++ [.implicitKeep (implicitKeepContext env)]) := by
  unfold afterNotify
  dsimp only
  by_cases hik : a.implicitKeep <;> by_cases hok : env.host.keep.code = sieveOk <;>
    simp only [hik, hok, if_true, if_false, Bool.false_eq_true, reduceCtorEq, ErrorExit.done.injEq,
      ErrorExit.again.injEq, false_implies, implies_true, and_true, true_and] <;>
    first
    | (rintro _ _ ⟨-, rfl⟩; simp [St.call])
    | (rintro _ rfl; rfl)

/-- One activation hands on the calls still to come: one that finishes makes them all, and
one that re-enters makes some and leaves the rest to the next. -/
theorem errorStep_quiet (a : ErrorArgs) :
    match errorStep env a with
    | .done _ st => ∃ m₁ m₂, st.calls = a.st.calls ++ pendingCalls env a ++ a.quietCalls env m₁ m₂
    | .again a' => ∀ m₁ m₂, ∃ m₁' m₂', a'.st.calls ++ pendingCalls env a' ++ a'.quietCalls env m₁ m₂ =
        a.st.calls ++ pendingCalls env a ++ a.quietCalls env m₁' m₂' := by
  rcases errorStep_cases env a with ⟨a', h, hk, hc, hnl, hne, hn, -⟩ | ⟨a₁, h, hk, hc, hnl, hr, -⟩
  · rw [h]
    intro m₁ m₂
    exact ⟨m₁, m₂, by simp [ErrorArgs.quietCalls, hc, hnl a' rfl, hk, hne, hn]⟩
  rw [h]
  obtain ⟨hdone, hagain⟩ := @afterNotify_calls env a₁
  rcases afterNotify_cases env a₁ with ⟨ret, st, -, h', -, -, -, -, -, hko, -⟩ |
      ⟨a', -, h', hik, hkf, hk', hl, hne, -⟩
  · rw [h']
    refine ⟨errorMessage a₁.lastaction a₁.st.lastitem a₁.errmsg a₁.ret, "", ?_⟩
    have hkeep : ¬(env.interp.executeErr = true ∧ a.implicitKeep = true ∧
        env.host.keep.code ≠ sieveOk) := fun hk' => hk'.2.2 (hko (hk ▸ hk'.2.1))
    rw [hdone ret st h', reportError_calls, hc, ErrorArgs.quietCalls, if_neg hkeep, ← hk]
    simp only [← hr]
    by_cases h₁ : a₁.ret = sieveOk <;> simp [h₁, and_comm]
  · rw [h']
    intro m₁ m₂
    refine ⟨errorMessage a₁.lastaction a₁.st.lastitem a₁.errmsg a₁.ret, m₁, ?_⟩
    rw [hagain a' h', reportError_calls, hc, hnl a' hl, ErrorArgs.quietCalls, ErrorArgs.quietCalls,
      ← hk]
    simp only [← hr]
    by_cases h₁ : a₁.ret = sieveOk <;> simp [h₁, hik, hkf, hk', hne, and_comm]

/-- `do_sieve_error` makes the pending notifications and then its quiet calls, in order. -/
theorem doSieveError_quiet (a : ErrorArgs) :
    ∃ m₁ m₂, (doSieveError env a).2.calls =
      a.st.calls ++ pendingCalls env a ++ a.quietCalls env m₁ m₂ := by
  refine doSieveError_induction (motive := fun a r =>
    ∃ m₁ m₂, r.2.calls = a.st.calls ++ pendingCalls env a ++ a.quietCalls env m₁ m₂) ?_ ?_ a
  · intro a ret st hs
    have := @errorStep_quiet env a
    rw [hs] at this
    exact this
  · rintro a a' r hs ⟨m₁, m₂, ih⟩
    have := @errorStep_quiet env a
    rw [hs] at this
    obtain ⟨m₁', m₂', h'⟩ := this m₁ m₂
    exact ⟨m₁', m₂', ih.trans h'⟩

end Quiet

/-- With a callback for every action of the list, what the host is called with in a run, in
order: action callbacks; the notify callback, once for each active entry whose method, options,
priority and message are set; `execute_err`, if it is registered and evaluation, an action or
a notification failed; the implicit keep, if it is made; `execute_err` again, if it is
registered and that keep failed; and `track` for each duplicate-tracking entry with an id, if
the run succeeded. -/
theorem sieveExecuteBytecode_calls (interp : Interp) (msg : Message) (host : Host) (ev : Eval)
    (hh : ∀ a ∈ ev.actions, interp.handles a.act = true) :
    ∃ s pre nots m₁ m₂ flags, (sieveExecuteBytecode interp msg host ev).2.calls = pre ++ nots ++
        ((if interp.executeErr = true ∧ ¬(ev.returned interp host = true ∧
            allSucceed interp host 0 ev.actions = true ∧
            (interp.notify = true → allSent host 0 ev.notifyList = true)) then
          [.executeErr m₁] else []) ++
        (if ev.returned interp host = true ∧ allSucceed interp host 0 ev.actions = true ∧
            ∀ a ∈ ev.actions, a.cancel_keep = false then
          [.implicitKeep ⟨flags, if interp.editedHeaders then msg.headersection else none⟩] else []) ++
        (if interp.executeErr = true ∧ (ev.returned interp host = true ∧
            allSucceed interp host 0 ev.actions = true ∧ ∀ a ∈ ev.actions, a.cancel_keep = false) ∧
            host.keep.code ≠ sieveOk then
          [.executeErr m₂] else []) ++
        if interp.duplicate ∧ (sieveExecuteBytecode interp msg host ev).1 = sieveOk then
          trackCalls ev.duptrackList else []) ∧
      (∀ c ∈ pre, c.isAction) ∧
      List.Forall₂ (fun n c => ∃ nc, notifyContext interp msg n s = some nc ∧ c = .notify nc)
        (if host.allocates interp ∧ interp.notify = true then
          ev.notifyList.filter fun n => n.isactive && n.complete else []) nots := by
  rcases sieveExecuteBytecode_cases interp msg host ev with ⟨-, -, -, -, ⟨a, ha, hu⟩, -⟩ |
      ⟨⟨i, m, hst, f⟩, a, h, ⟨rfl, rfl, rfl, hc, hr, hk, hp, hn⟩⟩
  · simp [hh a ha] at hu
  obtain ⟨m₁, m₂, hq⟩ := @doSieveError_quiet ⟨i, m, hst, f⟩ a
  have hn' : (a.ret = sieveOk ∧ notifyOk ⟨i, m, hst, f⟩ a.notifyList = true) ↔
      ev.returned i hst = true ∧ allSucceed i hst 0 ev.actions = true ∧
        (i.notify = true → allSent hst 0 ev.notifyList = true) := by
    rw [hr, hn]
    by_cases hv : ev.returned i hst = true
    · cases i.notify <;> simp [hv, allocates_of_returned hv]
    · simp [hv]
  refine ⟨a.traceFailure.actionsString, a.st.calls, pendingCalls ⟨i, m, hst, f⟩ a, m₁, m₂, f, ?_,
    hc, ?_⟩
  · rw [h, trackDuplicates_calls, trackDuplicates_fst, hq, ErrorArgs.quietCalls]
    simp only [hn', ← hk, List.append_assoc, implicitKeepContext]
  · rw [hp]
    by_cases ha : hst.allocates i ∧ i.notify = true
    · rw [if_pos ha, if_pos ha]
      exact notifyCalls_forall₂ ⟨i, m, hst, f⟩ _ _
    · rw [if_neg ha, if_neg ha]
      exact .nil

/-- A failing notification and then a failing implicit keep: after the fileinto and the
notification, `execute_err` is called, then the implicit keep, then `execute_err` again. -/
theorem sieveExecuteBytecode_calls_reportKeepReport :
    (∀ a ∈ fileAndNotify.actions, everyCallback.handles a.act = true) ∧
    ∃ s pre nots m₁ m₂ flags, (sieveExecuteBytecode everyCallback blankMessage
        { hostOk with notify := fun _ => ⟨sieveFail, none⟩, keep := ⟨sieveFail, none⟩ }
        fileAndNotify).2.calls = pre ++ nots ++ [.executeErr m₁, .implicitKeep ⟨flags, none⟩, .executeErr m₂] ∧
      (∀ c ∈ pre, c.isAction) ∧
      List.Forall₂ (fun n c => ∃ nc, notifyContext everyCallback blankMessage n s = some nc ∧
        c = .notify nc) fileAndNotify.notifyList nots := by
  refine ⟨by decide, ?_⟩
  obtain ⟨s, pre, nots, m₁, m₂, flags, h, hc, hf⟩ := sieveExecuteBytecode_calls everyCallback
    blankMessage { hostOk with notify := fun _ => ⟨sieveFail, none⟩, keep := ⟨sieveFail, none⟩ }
    fileAndNotify (by decide)
  exact ⟨s, pre, nots, m₁, m₂, flags, by simpa +decide using h, hc, by simpa +decide using hf⟩

/-! ## `interp->lastitem` across runs -/

section Lastitem

variable {env : Env}

theorem dispatch_lastitem {i : Nat} {l l' : Loop} {a : Act} (h : dispatch env i a l = some l') :
    l'.st.lastitem = a.lastitem.getD l.st.lastitem := by
  cases a <;> simp only [dispatch, Option.some.injEq] at h
  case discard =>
    subst h
    unfold runDiscard
    dsimp only
    split_ifs <;> rfl
  case vacation =>
    unfold runVacation at h
    split at h
    · dsimp only at h
      split at h
      · cases h; split <;> rfl
      · split at h <;> cases h <;> rfl
    · cases h
  all_goals first
    | (subst h; rfl)
    | (unfold runCallback at h
       split at h
       · cases h; split <;> rfl
       · cases h)

theorem actionLoop_lastitem : ∀ {i : Nat} {as : List Action} {l : Loop}, l.ret = sieveOk →
    (actionLoop env i as l).st.lastitem = walkLastitem env.interp env.host i l.st.lastitem as
  | _, [], _, _ => rfl
  | i, a :: as, l, hl => by
    rw [actionLoop, walkLastitem]
    cases hs : actionStep env i a l with
    | none => rw [if_neg (by simp [actionStep_eq_none.mp hs])]; rfl
    | some l' =>
      have hi := dispatch_lastitem hs
      obtain ⟨hret, -⟩ := actionStep_spec hs hl
      rw [if_pos (handles_of_actionStep hs)]
      dsimp only
      by_cases hr : l'.ret = sieveOk
      · rw [if_neg (not_not.mpr hr), if_pos (hret.mp hr), actionLoop_lastitem hr, hi]
      · rw [if_pos hr, if_neg (by simpa [hr] using hret.not)]
        exact hi

/-- The state an activation of `do_sieve_error` leaves, whether it finishes or re-enters. -/
def ErrorExit.st : ErrorExit → St
  | .done _ st => st
  | .again a => a.st

theorem afterNotify_lastitem (a : ErrorArgs) : (afterNotify env a).st.lastitem = a.st.lastitem := by
  have : (reportError env a).2.lastitem = a.st.lastitem := by
    unfold reportError
    split <;> rfl
  unfold afterNotify
  dsimp only
  split_ifs <;> simpa [ErrorExit.st] using this

theorem errorStep_lastitem (a : ErrorArgs) : (errorStep env a).st.lastitem = a.st.lastitem := by
  have : a.traceFailure.lastitem = a.st.lastitem := by
    unfold ErrorArgs.traceFailure
    split <;> rfl
  unfold errorStep
  split
  · dsimp only
    split
    · simpa [ErrorExit.st, notifyLoop_st] using this
    · simpa [afterNotify_lastitem, notifyLoop_st] using this
  · simpa [afterNotify_lastitem] using this

theorem doSieveError_lastitem (a : ErrorArgs) : (doSieveError env a).2.lastitem = a.st.lastitem := by
  refine doSieveError_induction (motive := fun a r => r.2.lastitem = a.st.lastitem) ?_ ?_ a
  · intro a ret st hs
    simpa [hs, ErrorExit.st] using @errorStep_lastitem env a
  · intro a a' r hs ih
    rw [ih]
    simpa [hs, ErrorExit.st] using @errorStep_lastitem env a

theorem doActionList_lastitem (actions : List Action) (nl : Option (List NotifyEntry))
    (errmsg : Option String) (st : St) :
    (doActionList env actions nl errmsg st).2.lastitem =
      walkLastitem env.interp env.host 0 st.lastitem actions := by
  have hl := @actionLoop_lastitem env 0 actions
    ⟨.null, sieveOk, true, errmsg, { st with actionsString := "Action(s) taken:\n".toList }⟩ rfl
  unfold doActionList
  split <;> rename_i h <;> rw [h] at hl
  · exact hl
  · rw [doSieveError_lastitem]
    exact hl

theorem trackDuplicates_lastitem (interp : Interp) (d : List DuptrackEntry) (r : BitVec 32 × St) :
    (trackDuplicates interp d r).2.lastitem = r.2.lastitem := by
  unfold trackDuplicates
  split <;> rfl

/-- After a run, `interp->lastitem` is what the last action the loop dispatched left there;
when the loop dispatched none that writes it (evaluation failed, a list could not be
allocated, or no action of the walk has an item), it is still what the previous run left. -/
theorem sieveExecuteBytecode_lastitem (interp : Interp) (msg : Message) (host : Host) (ev : Eval) :
    (sieveExecuteBytecode interp msg host ev).2.lastitem =
      if ev.returned interp host then walkLastitem interp host 0 interp.lastitem ev.actions
      else interp.lastitem := by
  unfold sieveExecuteBytecode evalAndDispatch
  dsimp only
  by_cases h₁ : interp.duplicate ∧ ¬host.allocDuptrack
  · have hr : ev.returned interp host = false := by simp [Eval.returned, Host.allocates, h₁.1, h₁.2]
    rw [if_pos h₁, doSieveError_lastitem, hr]
    rfl
  by_cases h₂ : interp.notify ∧ ¬host.allocNotify
  · have hr : ev.returned interp host = false := by simp [Eval.returned, Host.allocates, h₂.1, h₂.2]
    rw [if_neg h₁, if_pos h₂, doSieveError_lastitem, hr]
    rfl
  by_cases h₃ : ¬host.allocActions
  · have hr : ev.returned interp host = false := by simp [Eval.returned, Host.allocates, h₃]
    rw [if_neg h₁, if_neg h₂, if_pos h₃, trackDuplicates_lastitem, doSieveError_lastitem, hr]
    rfl
  have halloc := allocates_of_guards h₁ h₂ h₃
  rw [if_neg h₁, if_neg h₂, if_neg h₃, trackDuplicates_lastitem]
  by_cases h₄ : ev.ret.toInt < 0
  · have hr : ev.returned interp host = false := by simp [Eval.returned, h₄]
    rw [if_pos h₄, doSieveError_lastitem, hr]
    rfl
  · have hr : ev.returned interp host = true := by simp [Eval.returned, halloc, not_lt.mp h₄]
    rw [if_neg h₄, doActionList_lastitem, hr]
    rfl

/-- A first run that files into a mailbox leaves its name in `interp->lastitem`; a second run,
whose implicit keep fails, reports that name, where the same run on a fresh interpreter does
not. -/
theorem lastitem_leaks_across_runs :
    (sieveExecuteBytecode everyCallback blankMessage hostOk
        ⟨0, none, [], [⟨.fileinto "INBOX.private", true⟩], [], []⟩).2.lastitem = some "INBOX.private" ∧
    (sieveExecuteBytecode { everyCallback with lastitem := some "INBOX.private" } blankMessage
        { hostOk with keep := ⟨sieveFail, none⟩ } ⟨0, none, [], [], [], []⟩).2.calls =
      [.implicitKeep ⟨[], none⟩, .executeErr "Keep (INBOX.private): Generic Error"] ∧
    (sieveExecuteBytecode everyCallback blankMessage { hostOk with keep := ⟨sieveFail, none⟩ }
        ⟨0, none, [], [], [], []⟩).2.calls =
      [.implicitKeep ⟨[], none⟩, .executeErr "Keep: Generic Error"] := by
  decide

end Lastitem

end CyrusSieve
