import CyrusSieve.Proofs.Execute

/-!
# `actions_string` stays inside its buffer

Every `snprintf` into `actions_string` is bounded by `ACTIONS_STRING_LEN - strlen`, which
is safe only while `strlen` stays below `ACTIONS_STRING_LEN`: at `strlen = 4096` the
`size_t` size would be 0 and past it would wrap. This file shows that it always does,
for payloads of any length, and that what the buffer holds is never anything but the
first `ACTIONS_STRING_LEN - 1` bytes of the untruncated trace.

Both follow from one identity about a truncating append (`traceAppend_take`): an
`snprintf` onto the truncation of `T` gives the truncation of `T ++ t`. The rest is the
bridge between the run and the ghost trace of `Spec/Trace.lean`: the action loop and
`do_sieve_error` were shown, pass by pass and activation by activation, to append exactly
their lines (`actionLoop_trace`, `doSieveError_trace`), and `sieveExecuteBytecode_trace`
assembles the run from them.

What the trace says is `runTrace_walk`: after the header, the lines of the actions that
succeeded, in list order, as the spec's walk (`walkLines`) lists them; then only the lines of
`do_sieve_error`, which are failure lines and, once when the implicit keep succeeds, `Kept`.
A failing notification or keep adds a failure line of its own, so a run can end with up to
three.

The trace also travels: each notification's message ends with the buffer as it stood when
the notify loop ran (`sieveExecuteBytecode_notifyMessages`). That is the walk's lines and at
most one failure line, truncated, and never the implicit keep's `Kept`, which is written only
after every notification has gone out.
-/

namespace CyrusSieve

/-! ## Truncating appends -/

/-- An `snprintf` onto the first `ACTIONS_STRING_LEN - 1` bytes of `T` leaves the first
`ACTIONS_STRING_LEN - 1` bytes of `T ++ t`. -/
theorem traceAppend_take (T t : List Char) :
    traceAppend (T.take (actionsStringLen - 1)) t = (T ++ t).take (actionsStringLen - 1) := by
  rw [traceAppend, snprintf, List.take_append_eq_append_take, List.length_take]
  congr 2
  omega

theorem appendAll_take (T : List Char) (ts : List (List Char)) :
    appendAll (T.take (actionsStringLen - 1)) ts = (T ++ ts.flatten).take (actionsStringLen - 1) := by
  induction ts generalizing T with
  | nil => simp
  | cons t ts ih =>
    rw [← List.singleton_append, appendAll_append, appendAll_singleton, traceAppend_take, ih]
    simp

theorem appendAll_of_lt {s : List Char} (hs : s.length < actionsStringLen) (ts : List (List Char)) :
    appendAll s ts = (s ++ ts.flatten).take (actionsStringLen - 1) := by
  have := appendAll_take s ts
  rwa [List.take_of_length_le (by omega)] at this

theorem traceAppend_inBounds {s : List Char} (hs : s.length < actionsStringLen) (t : List Char) :
    1 ≤ actionsStringLen - s.length ∧
      s.length + (snprintf (actionsStringLen - s.length) t).length + 1 ≤ actionsStringLen := by
  have := length_snprintf_le (actionsStringLen - s.length) t
  omega

/-! ## The run appends its lines -/

theorem trackDuplicates_actionsString (interp : Interp) (d : List DuptrackEntry)
    (r : BitVec 32 × St) : (trackDuplicates interp d r).2.actionsString = r.2.actionsString := by
  unfold trackDuplicates
  split <;> rfl

theorem doActionList_trace (env : Env) (actions : List Action) (nl : Option (List NotifyEntry))
    (errmsg : Option String) (st : St) :
    (doActionList env actions nl errmsg st).2.actionsString =
      appendAll "Action(s) taken:\n".toList (doActionListLines env actions nl errmsg st) := by
  have hl := @actionLoop_trace env 0 actions
    ⟨.null, sieveOk, true, errmsg, { st with actionsString := "Action(s) taken:\n".toList }⟩ rfl
  unfold doActionList doActionListLines
  split <;> rename_i h <;> simp only [h, LoopExit.st] at hl ⊢
  · simpa using hl
  · rw [doSieveError_trace, hl, appendAll_append]

/-- The buffer of a run is its ghost trace folded with truncating appends. -/
theorem sieveExecuteBytecode_trace (interp : Interp) (msg : Message) (host : Host) (ev : Eval) :
    (sieveExecuteBytecode interp msg host ev).2.actionsString =
      appendAll (runTrace interp msg host ev).1 (runTrace interp msg host ev).2 := by
  unfold sieveExecuteBytecode runTrace evalAndDispatch
  by_cases h₁ : interp.duplicate ∧ ¬host.allocDuptrack
  · simp only [if_pos h₁, doSieveError_trace]
  by_cases h₂ : interp.notify ∧ ¬host.allocNotify
  · simp only [if_neg h₁, if_pos h₂, doSieveError_trace]
  by_cases h₃ : ¬host.allocActions
  · simp only [if_neg h₁, if_neg h₂, if_pos h₃, trackDuplicates_actionsString, doSieveError_trace]
  by_cases h₄ : ev.ret.toInt < 0
  · simp only [if_neg h₁, if_neg h₂, if_neg h₃, if_pos h₄, trackDuplicates_actionsString,
      doSieveError_trace]
  · simp only [if_neg h₁, if_neg h₂, if_neg h₃, if_neg h₄, trackDuplicates_actionsString,
      doActionList_trace]

theorem runTrace_fst_lt (interp : Interp) (msg : Message) (host : Host) (ev : Eval) :
    (runTrace interp msg host ev).1.length < actionsStringLen := by
  simp only [runTrace, apply_ite Prod.fst, apply_ite List.length, List.length_nil]
  split_ifs <;> decide

/-- Every `snprintf` of a run into `actions_string`, in `do_action_list` and in
`do_sieve_error`, is given a size `ACTIONS_STRING_LEN - strlen` of at least 1 and writes
inside the buffer; after it the buffer holds the first `ACTIONS_STRING_LEN - 1` bytes of
the untruncated trace so far. -/
theorem actionsString_truncates (interp : Interp) (msg : Message) (host : Host) (ev : Eval) :
    let s₀ := (runTrace interp msg host ev).1
    let ts := (runTrace interp msg host ev).2
    (sieveExecuteBytecode interp msg host ev).2.actionsString = appendAll s₀ ts ∧
    ∀ pre t post, ts = pre ++ t :: post →
      let s := appendAll s₀ pre
      1 ≤ actionsStringLen - s.length ∧
      s.length + (snprintf (actionsStringLen - s.length) t).length + 1 ≤ actionsStringLen ∧
      appendAll s₀ (pre ++ [t]) = (s₀ ++ pre.flatten ++ t).take (actionsStringLen - 1) := by
  intro s₀ ts
  have h₀ : s₀.length < actionsStringLen := runTrace_fst_lt interp msg host ev
  refine ⟨sieveExecuteBytecode_trace interp msg host ev, fun pre t _ _ => ?_⟩
  have hs : (appendAll s₀ pre).length < actionsStringLen := by
    rw [appendAll_of_lt h₀, List.length_take]
    exact lt_of_le_of_lt (min_le_left _ _) (by decide)
  exact ⟨(traceAppend_inBounds hs t).1, (traceAppend_inBounds hs t).2,
    by rw [appendAll_of_lt h₀]; simp⟩

/-! ## What the trace says -/

section Walk

variable {env : Env}

theorem loopLines_walk : ∀ {i : Nat} {as : List Action} {l : Loop},
    (∀ a ∈ as, env.interp.handles a.act = true) → l.ret = sieveOk →
    loopLines env i as l = walkLines env.interp env.host i as
  | _, [], _, _, _ => rfl
  | i, a :: as, l, hh, hl => by
    obtain ⟨l₁, hs⟩ : ∃ l₁, actionStep env i a l = some l₁ :=
      Option.ne_none_iff_exists'.mp fun h => by simp [actionStep_eq_none.mp h] at hh
    obtain ⟨hret, -, -, -⟩ := actionStep_spec hs hl
    rw [loopLines, hs, walkLines]
    dsimp only
    by_cases hr : l₁.ret = sieveOk
    · rw [if_neg (not_not.mpr hr), if_pos (hret.mp hr),
        loopLines_walk (fun b hb => hh b (List.mem_cons_of_mem _ hb)) hr]
    · rw [if_pos hr, if_neg fun h => hr (hret.mpr h)]

theorem failureLine_ne_kept (la : ActionT) (em : Option String) (r : BitVec 32) :
    failureLine la em r ≠ "Kept\n".toList := fun h => by
  have := congrArg List.length h
  unfold failureLine at this
  split at this <;> simp at this
  omega

theorem errorStep_keep (a : ErrorArgs) :
    (∀ ret st, errorStep env a = .done ret st → a.implicitKeep = true →
      env.host.keep.code = sieveOk) ∧
    (∀ a', errorStep env a = .again a' →
      (a'.implicitKeep = true ∧ env.host.keep.code = sieveOk ↔
        a.implicitKeep = true ∧ env.host.keep.code = sieveOk)) := by
  rcases errorStep_cases env a with ⟨a', h, hk, -⟩ | ⟨a₁, h, hk, -⟩
  · rw [h]
    refine ⟨fun _ _ h' => (by cases h'), fun _ h' => ?_⟩
    cases h'
    rw [hk]
  rw [h, ← hk]
  rcases afterNotify_cases env a₁ with ⟨ret, st, -, h', -, -, -, -, -, hko, -⟩ |
      ⟨a', -, h', hik, hkf, hk', -⟩
  · refine ⟨fun _ _ _ => hko, fun _ h'' => ?_⟩
    rw [h'] at h''
    cases h''
  · refine ⟨fun _ _ h'' => ?_, fun _ h'' => ?_⟩
    · rw [h'] at h''
      cases h''
    rw [h'] at h''
    cases h''
    simp [hk', hkf]

theorem ErrorArgs.failureLines_spec (a : ErrorArgs) :
    (a.failureLines = [] ↔ a.ret = sieveOk) ∧ a.failureLines.length ≤ 1 ∧
      ∀ t ∈ a.failureLines, ∃ la em r, t = failureLine la em r := by
  unfold ErrorArgs.failureLines
  split <;> simp_all

/-- The lines of `do_sieve_error`'s activations, on a budget that suffices, are failure lines,
and `Kept` once exactly when the implicit keep is on and succeeds. -/
theorem errorLines_post : ∀ (n : Nat) (a : ErrorArgs), a.measure env < n →
    (∀ t ∈ errorLines env n a, t = "Kept\n".toList ∨ ∃ la em r, t = failureLine la em r) ∧
    (errorLines env n a).count "Kept\n".toList =
      if a.implicitKeep = true ∧ env.host.keep.code = sieveOk then 1 else 0
  | 0, _, h => absurd h (Nat.not_lt_zero _)
  | n + 1, a, h => by
    have hf := (ErrorArgs.failureLines_spec a).2.2
    have hc : a.failureLines.count "Kept\n".toList = 0 :=
      List.count_eq_zero.mpr fun ht => by
        obtain ⟨la, em, r, h'⟩ := hf _ ht
        exact failureLine_ne_kept la em r h'.symm
    obtain ⟨hdone, hagain⟩ := @errorStep_keep env a
    rw [errorLines]
    cases hs : errorStep env a with
    | done ret st =>
      dsimp only
      refine ⟨fun t ht => ?_, ?_⟩
      · rcases List.mem_append.mp ht with ht | ht
        · exact .inr (hf t ht)
        · split at ht <;> simp_all
      · rw [List.count_append, hc, Nat.zero_add]
        by_cases hk : a.implicitKeep = true
        · simp [hk, hdone ret st hs hk]
        · simp [hk]
    | again a' =>
      dsimp only
      obtain ⟨ih₁, ih₂⟩ := errorLines_post n a' (by have := errorStep_measure hs; omega)
      refine ⟨fun t ht => ?_, ?_⟩
      · rcases List.mem_append.mp ht with ht | ht
        · exact .inr (hf t ht)
        · exact ih₁ t ht
      · rw [List.count_append, hc, ih₂, Nat.zero_add]
        simp only [hagain a' hs]

end Walk

theorem returned_branches {interp : Interp} {host : Host} {ev : Eval}
    (hr : ev.returned interp host = true) :
    ¬(interp.duplicate = true ∧ ¬host.allocDuptrack = true) ∧
      ¬(interp.notify = true ∧ ¬host.allocNotify = true) ∧ ¬¬host.allocActions = true ∧
      ¬ev.ret.toInt < 0 := by
  have halloc := allocates_of_returned hr
  refine ⟨fun ⟨h, h'⟩ => ?_, fun ⟨h, h'⟩ => ?_, fun h => ?_, ?_⟩
  all_goals first
    | simp [Host.allocates, h, h'] at halloc
    | simp [Host.allocates, h] at halloc
    | (simp [Eval.returned] at hr; omega)

/-- With a callback for every action and an evaluation that returned, the untruncated trace is
the header followed by the line of each action that succeeded, in list order, up to the first
that failed. Every line after those is a failure line or `Kept`, and `Kept` is among them once,
exactly when the implicit keep is made and succeeds. -/
theorem runTrace_walk (interp : Interp) (msg : Message) (host : Host) (ev : Eval)
    (hh : ∀ a ∈ ev.actions, interp.handles a.act = true) (hr : ev.returned interp host = true) :
    ∃ post, runTrace interp msg host ev =
        ("Action(s) taken:\n".toList, walkLines interp host 0 ev.actions ++ post) ∧
      (∀ t ∈ post, t = "Kept\n".toList ∨ ∃ la em r, t = failureLine la em r) ∧
      post.count "Kept\n".toList = if allSucceed interp host 0 ev.actions = true ∧
        (∀ a ∈ ev.actions, a.cancel_keep = false) ∧ host.keep.code = sieveOk then 1 else 0 := by
  obtain ⟨hd, hn, ha, hpos⟩ := returned_branches hr
  let env : Env := ⟨interp, msg, host, ev.imapflags⟩
  let l₀ : Loop := ⟨.null, sieveOk, true, ev.errmsg,
    { (⟨[], [], interp.lastitem⟩ : St) with actionsString := "Action(s) taken:\n".toList }⟩
  obtain ⟨l, hl, -⟩ := @actionLoop_walk env 0 ev.actions l₀ hh rfl
  obtain ⟨-, -, hspec⟩ := @actionLoop_spec env 0 ev.actions l₀ rfl
  obtain ⟨-, hik⟩ := hspec l hl
  let a : ErrorArgs := ⟨l.ret, if interp.notify then some ev.notifyList else none, l.lastaction,
    l.implicitKeep, l.errmsg, l.st⟩
  obtain ⟨hpost, hkept⟩ := @errorLines_post env _ a (Nat.lt_succ_self _)
  refine ⟨doSieveErrorLines env a, ?_, hpost, ?_⟩
  · unfold runTrace doActionListLines
    rw [if_neg hd, if_neg hn, if_neg ha, if_neg hpos]
    dsimp only
    rw [hl, loopLines_walk hh rfl]
  · rw [doSieveErrorLines, hkept]
    simp only [a, hik, true_and, and_assoc]

/-- A vacation whose reply `autorespond` suppresses, then a fileinto that fails: the trace
shows the vacation's line, and after it only failure lines, with no `Kept`. -/
theorem runTrace_walk_doneThenFail :
    ∃ post, runTrace everyCallback blankMessage hostDoneThenFail
        ⟨0, none, [], vacationFileRedirect, [], []⟩ =
        ("Action(s) taken:\n".toList, ["Vacation reply suppressed\n".toList] ++ post) ∧
      (∀ t ∈ post, t = "Kept\n".toList ∨ ∃ la em r, t = failureLine la em r) ∧
      post.count "Kept\n".toList = 0 := by
  obtain ⟨post, h, hp, hk⟩ := runTrace_walk everyCallback blankMessage hostDoneThenFail
    ⟨0, none, [], vacationFileRedirect, [], []⟩ (by decide) (by decide)
  have hw : walkLines everyCallback hostDoneThenFail 0 vacationFileRedirect =
      ["Vacation reply suppressed\n".toList] := by decide
  exact ⟨post, hw ▸ h, hp, by simpa +decide using hk⟩

/-! ## What a notification carries -/

theorem sieveExecuteBytecode_of_returned {interp : Interp} {msg : Message} {host : Host}
    {ev : Eval} (hr : ev.returned interp host = true) :
    sieveExecuteBytecode interp msg host ev = trackDuplicates interp ev.duptrackList
      (doActionList ⟨interp, msg, host, ev.imapflags⟩ ev.actions
        (if interp.notify then some ev.notifyList else none) ev.errmsg ⟨[], [], interp.lastitem⟩) := by
  obtain ⟨hd, hn, ha, hpos⟩ := returned_branches hr
  unfold sieveExecuteBytecode evalAndDispatch
  rw [if_neg hd, if_neg hn, if_neg ha]
  dsimp only
  rw [if_neg hpos]

theorem notifyContext_message {i : Interp} {m : Message} {n : NotifyEntry} {s : List Char}
    {nc : NotifyContext} (h : notifyContext i m n s = some nc) :
    nc.message = (buildNotifyMessage i m n.message).text.map (· ++ "\n\n".toList ++ s) := by
  unfold notifyContext at h
  split at h
  · next hm =>
    cases h
    simp [hm]
  · cases h

/-- With a notify callback and a callback for every action, in a run whose evaluation
returned, the host is called with the spec's walk of the action list, then with the notify
callback, once each and in list order, for the active entries whose method, options, priority
and message are set, and after those only with `execute_err`, the implicit keep and `track`.
The message of each notification is its template's expansion, a blank line, and the first
`ACTIONS_STRING_LEN - 1` bytes of the trace as it stood before the notifications: the header,
the lines of the actions that succeeded, and a failure line when an action failed. It never
holds the implicit keep's `Kept`, which comes after the notifications. A template whose scan
read past its terminator gives no message text. -/
theorem sieveExecuteBytecode_notifyMessages (interp : Interp) (msg : Message) (host : Host)
    (ev : Eval) (hn : interp.notify = true) (hh : ∀ a ∈ ev.actions, interp.handles a.act = true)
    (hr : ev.returned interp host = true) :
    ∃ F nots post, (sieveExecuteBytecode interp msg host ev).2.calls =
        walkCalls interp host 0 ev.actions ++ nots ++ post ∧
      (∀ c ∈ post, c.isExecuteErr ∨ c.isImplicitKeep ∨ c.isTrack) ∧
      (F = [] ↔ allSucceed interp host 0 ev.actions = true) ∧ F.length ≤ 1 ∧
      (∀ t ∈ F, ∃ la em r, t = failureLine la em r) ∧
      List.Forall₂ (fun n c => ∃ nc, c = .notify nc ∧ nc.message =
          (buildNotifyMessage interp msg n.message).text.map (· ++ "\n\n".toList ++
            ("Action(s) taken:\n".toList ++ (walkLines interp host 0 ev.actions ++ F).flatten).take
              (actionsStringLen - 1)))
        (ev.notifyList.filter fun n => n.isactive && n.complete) nots := by
  let env : Env := ⟨interp, msg, host, ev.imapflags⟩
  let l₀ : Loop := ⟨.null, sieveOk, true, ev.errmsg,
    { (⟨[], [], interp.lastitem⟩ : St) with actionsString := "Action(s) taken:\n".toList }⟩
  obtain ⟨l, hl, hcalls⟩ := @actionLoop_walk env 0 ev.actions l₀ hh rfl
  obtain ⟨-, -, hspec⟩ := @actionLoop_spec env 0 ev.actions l₀ rfl
  obtain ⟨hok, -⟩ := hspec l hl
  have htrace : l.st.actionsString =
      appendAll "Action(s) taken:\n".toList (walkLines interp host 0 ev.actions) := by
    have := @actionLoop_trace env 0 ev.actions l₀ rfl
    rwa [hl, loopLines_walk hh rfl] at this
  let a : ErrorArgs := ⟨l.ret, some ev.notifyList, l.lastaction, l.implicitKeep, l.errmsg, l.st⟩
  obtain ⟨post, hpost, hq⟩ := @doSieveError_calls env a
  have hpend : pendingCalls env a = notifyCalls env a.traceFailure.actionsString ev.notifyList := by
    simp [pendingCalls, a, env, hn]
  obtain ⟨hF₀, hF₁, hF₂⟩ := ErrorArgs.failureLines_spec a
  refine ⟨a.failureLines, notifyCalls env a.traceFailure.actionsString ev.notifyList,
    post ++ if interp.duplicate ∧ (doSieveError env a).1 = sieveOk then trackCalls ev.duptrackList
      else [], ?_, ?_, hF₀.trans hok, hF₁, hF₂, ?_⟩
  · rw [sieveExecuteBytecode_of_returned hr, trackDuplicates_calls, hn, if_pos rfl]
    unfold doActionList
    rw [hl]
    dsimp only
    rw [hpost, ← hpend]
    simp [a, hcalls, l₀]
  · intro c hc
    rcases List.mem_append.mp hc with hc | hc
    · rcases hq c hc with h | h <;> simp [h]
    · split at hc
      · simp [trackCalls_isTrack _ c hc]
      · cases hc
  · refine (notifyCalls_forall₂ env _ _).imp fun n c ⟨nc, hnc, hc⟩ => ⟨nc, hc, ?_⟩
    rw [notifyContext_message hnc, ErrorArgs.traceFailure_actionsString]
    show Option.map (· ++ _ ++ appendAll l.st.actionsString a.failureLines) _ = _
    rw [htrace, ← appendAll_append, appendAll_of_lt (by decide)]

/-- A fileinto and a complete notification, with every callback succeeding: the notification's
message ends with the trace of the fileinto. -/
theorem sieveExecuteBytecode_notifyMessages_fileAndNotify :
    ∃ nots post, (sieveExecuteBytecode everyCallback blankMessage hostOk fileAndNotify).2.calls =
        [.fileinto "INBOX.lists"] ++ nots ++ post ∧
      List.Forall₂ (fun n c => ∃ nc, c = .notify nc ∧ nc.message =
          (buildNotifyMessage everyCallback blankMessage n.message).text.map (· ++ "\n\n".toList ++
            "Action(s) taken:\nFiled into: INBOX.lists\n".toList)) fileAndNotify.notifyList nots := by
  obtain ⟨F, nots, post, h, -, hF, -, -, hm⟩ := sieveExecuteBytecode_notifyMessages everyCallback
    blankMessage hostOk fileAndNotify rfl (by decide) (by decide)
  obtain rfl : F = [] := hF.mpr (by decide)
  have hw : walkCalls everyCallback hostOk 0 fileAndNotify.actions = [.fileinto "INBOX.lists"] := by
    decide
  have hl : ("Action(s) taken:\n".toList ++
      (walkLines everyCallback hostOk 0 fileAndNotify.actions ++ []).flatten).take
        (actionsStringLen - 1) = "Action(s) taken:\nFiled into: INBOX.lists\n".toList := by
    decide
  have hf : (fileAndNotify.notifyList.filter fun n => n.isactive && n.complete) =
      fileAndNotify.notifyList := by decide
  rw [hl, hf] at hm
  exact ⟨nots, post, hw ▸ h, hm⟩

end CyrusSieve
