import CyrusSieve.Model.Notify

/-!
# The dispatcher: `do_sieve_error`, `do_action_list`, `sieve_execute_bytecode`

A run threads `St`: the callbacks made so far (with the argument each received), the
operator trace `actions_string`, and the interpreter's `lastitem`, the one piece of the
interpreter the dispatcher writes and the one that outlives the run.

`do_sieve_error` calls itself twice, after a failed notification and after a failed
implicit keep, and both calls are `return do_sieve_error (...)`. So it is one activation,
`errorStep`, that either finishes or hands new arguments to the next, and
`doSieveError` iterates it. Each re-entry clears the notify list or the implicit keep,
which is the measure: at most three activations run, and `doSieveError` is given a budget
it provably never exhausts.
-/

namespace CyrusSieve

/-- What one run of the dispatcher changes. -/
structure St where
  calls : List Call
  actionsString : List Char
  lastitem : Option String
  deriving DecidableEq, Repr

/-- `snprintf (actions_string + strlen (actions_string),
ACTIONS_STRING_LEN - strlen (actions_string), ...)` of the text `t`. -/
def St.append (st : St) (t : List Char) : St :=
  { st with actionsString := st.actionsString ++ snprintf (actionsStringLen - st.actionsString.length) t }

/-- A callback invocation. -/
def St.call (st : St) (c : Call) : St := { st with calls := st.calls ++ [c] }

@[simp] theorem St.append_calls (st : St) (t : List Char) : (st.append t).calls = st.calls := rfl

@[simp] theorem St.append_lastitem (st : St) (t : List Char) :
    (st.append t).lastitem = st.lastitem := rfl

@[simp] theorem St.call_calls (st : St) (c : Call) : (st.call c).calls = st.calls ++ [c] := rfl

@[simp] theorem St.call_lastitem (st : St) (c : Call) : (st.call c).lastitem = st.lastitem := rfl

/-- What a run reads and never writes: the interpreter's registrations, the message, the
host, and the IMAP flags evaluation left in the unnamed variable frame. -/
structure Env where
  interp : Interp
  msg : Message
  host : Host
  imapflags : List String

/-! ## `do_sieve_error` -/

/-- The reason `do_sieve_error` reports: the callback's `errmsg`, else `sieve_errstr`. -/
def reason (errmsg : Option String) (ret : BitVec 32) : String := errmsg.getD (sieveErrstr ret)

/-- The trace line `do_sieve_error` appends when the run failed. -/
def failureLine (lastaction : ActionT) (errmsg : Option String) (ret : BitVec 32) :
    List Char :=
  if lastaction = .null then ("script execution failed: " ++ reason errmsg ret ++ "\n").toList
  else (actionToString lastaction ++ " action failed: " ++ reason errmsg ret ++ "\n").toList

/-- The message `do_sieve_error` formats into its `ERR_BUF_SIZE` buffer for `execute_err`. -/
def errorMessage (lastaction : ActionT) (lastitem errmsg : Option String)
    (ret : BitVec 32) : String :=
  String.mk <| snprintf errBufSize <| String.toList <|
    if lastaction = .null then reason errmsg ret
    else match lastitem with
      | some item => actionToString lastaction ++ " (" ++ item ++ "): " ++ reason errmsg ret
      | none => actionToString lastaction ++ ": " ++ reason errmsg ret

/-- The parameters of `do_sieve_error` that change between activations. -/
structure ErrorArgs where
  ret : BitVec 32
  notifyList : Option (List NotifyEntry)
  lastaction : ActionT
  implicitKeep : Bool
  errmsg : Option String
  st : St

/-- The variables the notify loop of `do_sieve_error` updates. -/
structure NotifyAcc where
  ret : BitVec 32
  lastaction : ActionT
  errmsg : Option String
  notifyRet : BitVec 32
  st : St

/-- One active entry, at position `j` of the notify list: `send_notify_callback`, then
`ret |= notify_ret`. -/
def notifyOne (env : Env) (j : Nat) (n : NotifyEntry) (acc : NotifyAcc) : NotifyAcc :=
  match notifyContext env.interp env.msg n acc.st.actionsString with
  | none =>
    { acc with ret := acc.ret ||| sieveRunError, lastaction := .notify,
               notifyRet := sieveRunError }
  | some nc =>
    { ret := acc.ret ||| (env.host.notify j).code, lastaction := .notify,
      errmsg := (env.host.notify j).errmsg.getD acc.errmsg,
      notifyRet := (env.host.notify j).code, st := acc.st.call (.notify nc) }

/-- The `while (n != NULL)` loop over the notify list, from position `j`. -/
def notifyLoop (env : Env) (j : Nat) : List NotifyEntry → NotifyAcc → NotifyAcc
  | [], acc => acc
  | n :: ns, acc => notifyLoop env (j + 1) ns (if n.isactive then notifyOne env j n acc else acc)

/-- How an activation of `do_sieve_error` ends: with its result, or by re-entering. -/
inductive ErrorExit
  | done (ret : BitVec 32) (st : St)
  | again (a : ErrorArgs)

/-- The keep context of the implicit keep. -/
def implicitKeepContext (env : Env) : KeepContext :=
  ⟨env.imapflags, if env.interp.editedHeaders then env.msg.headersection else none⟩

/-- The `execute_err` block of `do_sieve_error`: a failed run is reported. -/
def reportError (env : Env) (a : ErrorArgs) : BitVec 32 × St :=
  if a.ret ≠ sieveOk ∧ env.interp.executeErr then
    let msg := errorMessage a.lastaction a.st.lastitem a.errmsg a.ret
    (a.ret ||| env.host.executeErr msg, a.st.call (.executeErr msg))
  else (a.ret, a.st)

/-- The part of an activation after the notify block: `execute_err`, then the implicit
keep, which re-enters once more when it fails. -/
def afterNotify (env : Env) (a : ErrorArgs) : ErrorExit :=
  let r := reportError env a
  if a.implicitKeep then
    if env.host.keep.code = sieveOk then
      .done r.1 ((r.2.call (.implicitKeep (implicitKeepContext env))).append "Kept\n".toList)
    else .again ⟨r.1 ||| env.host.keep.code, a.notifyList, .keep, false,
      env.host.keep.errmsg.getD a.errmsg, r.2.call (.implicitKeep (implicitKeepContext env))⟩
  else .done r.1 r.2

/-- The first statement of `do_sieve_error`: a failed run's line goes to the trace. -/
def ErrorArgs.traceFailure (a : ErrorArgs) : St :=
  if a.ret ≠ sieveOk then a.st.append (failureLine a.lastaction a.errmsg a.ret) else a.st

/-- One activation of `do_sieve_error`. -/
def errorStep (env : Env) (a : ErrorArgs) : ErrorExit :=
  match a.notifyList, env.interp.notify with
  | some nl, true =>
    let acc := notifyLoop env 0 nl ⟨a.ret, a.lastaction, a.errmsg, sieveOk, a.traceFailure⟩
    if acc.notifyRet ≠ sieveOk then
      .again ⟨acc.ret, none, acc.lastaction, a.implicitKeep, acc.errmsg, acc.st⟩
    else afterNotify env ⟨acc.ret, none, acc.lastaction, a.implicitKeep, acc.errmsg, acc.st⟩
  | _, _ => afterNotify env { a with st := a.traceFailure }

/-- What is left for re-entries to clear: the notify list, while notifications are
registered, and the implicit keep. -/
def ErrorArgs.measure (env : Env) (a : ErrorArgs) : Nat :=
  (if env.interp.notify ∧ a.notifyList.isSome then 1 else 0) + (if a.implicitKeep then 1 else 0)

theorem afterNotify_measure {env : Env} {a a' : ErrorArgs} (h : afterNotify env a = .again a') :
    a'.measure env < a.measure env := by
  by_cases hk : a.implicitKeep <;> by_cases hc : env.host.keep.code = sieveOk <;>
    simp only [afterNotify, hk, hc, if_true, if_false, reduceCtorEq, ErrorExit.again.injEq] at h
  subst h
  simp [ErrorArgs.measure, hk]

theorem errorStep_measure {env : Env} {a a' : ErrorArgs} (h : errorStep env a = .again a') :
    a'.measure env < a.measure env := by
  unfold errorStep at h
  split at h
  · next nl hn hnot =>
    dsimp only at h
    split at h
    · cases h; simp [ErrorArgs.measure, hn, hnot]
    · have := afterNotify_measure h
      simp only [ErrorArgs.measure, hn, hnot] at this ⊢
      simp at this ⊢
      omega
  · have := afterNotify_measure h
    simpa [ErrorArgs.measure] using this

/-- Activations of `do_sieve_error`, iterated on a budget of `n`. -/
def activations (env : Env) : Nat → ErrorArgs → BitVec 32 × St
  | 0, a => (a.ret, a.st)
  | n + 1, a =>
    match errorStep env a with
    | .done ret st => (ret, st)
    | .again a' => activations env n a'

/-- `do_sieve_error`. Each re-entry lowers `ErrorArgs.measure`, so a budget of one more
than the measure is never used up (`activations_of_lt`). -/
def doSieveError (env : Env) (a : ErrorArgs) : BitVec 32 × St :=
  activations env (a.measure env + 1) a

theorem activations_congr {env : Env} : ∀ {n m : Nat} {a : ErrorArgs},
    a.measure env < n → a.measure env < m → activations env n a = activations env m a
  | 0, _, _, hn, _ => absurd hn (Nat.not_lt_zero _)
  | _ + 1, 0, _, _, hm => absurd hm (Nat.not_lt_zero _)
  | n + 1, m + 1, a, hn, hm => by
    rw [activations, activations]
    split
    · rfl
    · next a' ha =>
      have := errorStep_measure ha
      exact activations_congr (by omega) (by omega)

theorem activations_of_lt {env : Env} {n : Nat} {a : ErrorArgs} (h : a.measure env < n) :
    activations env n a = doSieveError env a :=
  activations_congr h (Nat.lt_succ_self _)

theorem doSieveError_of_done {env : Env} {a : ErrorArgs} {ret : BitVec 32} {st : St}
    (h : errorStep env a = .done ret st) : doSieveError env a = (ret, st) := by
  rw [doSieveError, activations, h]

theorem doSieveError_of_again {env : Env} {a a' : ErrorArgs} (h : errorStep env a = .again a') :
    doSieveError env a = doSieveError env a' := by
  rw [doSieveError, activations, h]
  exact activations_of_lt (errorStep_measure h)

/-! ## `do_action_list` -/

/-- The variables of the action loop. -/
structure Loop where
  lastaction : ActionT
  ret : BitVec 32
  implicitKeep : Bool
  errmsg : Option String
  st : St

/-- The reject, fileinto, snooze, keep and redirect cases, which differ only in their
callback, argument, item and trace line: a missing callback is `return
SIEVE_INTERNAL_ERROR` (`none`); otherwise the callback's reply is `ret`, `lastitem`
becomes `item`, and a success adds `line` to the trace. -/
def runCallback (env : Env) (i : Nat) (registered : Bool) (call : Call) (item : Option String)
    (line : List Char) (l : Loop) : Option Loop :=
  if registered then
    let r := env.host.action i
    let st := { l.st.call call with lastitem := item }
    some { l with ret := r.code, errmsg := r.errmsg.getD l.errmsg,
                  st := if r.code = sieveOk then st.append line else st }
  else none

/-- `case ACTION_DISCARD`: the callback is optional, and without it `ret` stays as it was. -/
def runDiscard (env : Env) (i : Nat) (l : Loop) : Loop :=
  let l := if env.interp.discard then
      { l with ret := (env.host.action i).code, errmsg := (env.host.action i).errmsg.getD l.errmsg,
               st := l.st.call .discard }
    else l
  let st := { l.st with lastitem := none }
  { l with st := if l.ret = sieveOk then st.append "Discarded\n".toList else st }

/-- `case ACTION_VACATION`: `autorespond`, then `send_response` when it answers
`SIEVE_OK`; an answer of `SIEVE_DONE` becomes `SIEVE_OK` with nothing sent. -/
def runVacation (env : Env) (i : Nat) (l : Loop) : Option Loop :=
  if env.interp.vacation then
    let r := env.host.action i
    let st := { l.st.call .autorespond with lastitem := none }
    let errmsg := r.errmsg.getD l.errmsg
    if r.code = sieveOk then
      let r₂ := env.host.sendResponse i
      let st := st.call .sendResponse
      some { l with ret := r₂.code, errmsg := r₂.errmsg.getD errmsg,
                    st := if r₂.code = sieveOk then st.append "Sent vacation reply\n".toList else st }
    else if r.code = sieveDone then
      some { l with ret := sieveOk, errmsg, st := st.append "Vacation reply suppressed\n".toList }
    else some { l with ret := r.code, errmsg, st }
  else none

/-- The `switch` of the loop body for the action at position `i`. -/
def dispatch (env : Env) (i : Nat) : Act → Loop → Option Loop
  | .reject msg => runCallback env i env.interp.reject (.reject msg) (some msg)
      ("Rejected with: " ++ msg ++ "\n").toList
  | .ereject msg => runCallback env i env.interp.reject (.reject msg) (some msg)
      ("eRejected with: " ++ msg ++ "\n").toList
  | .fileinto mailbox => runCallback env i env.interp.fileinto (.fileinto mailbox) (some mailbox)
      ("Filed into: " ++ mailbox ++ "\n").toList
  | .snooze => runCallback env i env.interp.snooze .snooze none "Snoozed\n".toList
  | .keep ctx => runCallback env i env.interp.keep (.keep ctx) none "Kept\n".toList
  | .redirect addr => runCallback env i env.interp.redirect (.redirect addr) (some addr)
      ("Redirected to " ++ addr ++ "\n").toList
  | .discard => fun l => some (runDiscard env i l)
  | .vacation => runVacation env i
  | .none => some
  | .null | .setflag | .addflag | .removeflag | .mark | .unmark | .notify | .denotify =>
      fun l => some { l with ret := sieveInternalError }

/-- One pass of the loop body, up to its `break`. -/
def actionStep (env : Env) (i : Nat) (a : Action) (l : Loop) : Option Loop :=
  dispatch env i a.act
    { l with lastaction := a.act.kind, errmsg := none,
             implicitKeep := l.implicitKeep && !a.cancel_keep }

/-- Where the action loop left `do_action_list`: returning `SIEVE_INTERNAL_ERROR` from
inside it, or falling through to `do_sieve_error`. -/
inductive LoopExit
  | internalError (st : St)
  | fallthrough (l : Loop)

/-- The `while (a != NULL)` loop, from the action at position `i`. -/
def actionLoop (env : Env) (i : Nat) : List Action → Loop → LoopExit
  | [], l => .fallthrough l
  | a :: as, l =>
    match actionStep env i a l with
    | none => .internalError l.st
    | some l' =>
      if l'.ret ≠ sieveOk then .fallthrough { l' with implicitKeep := false }
      else actionLoop env (i + 1) as l'

/-- `do_action_list`. -/
def doActionList (env : Env) (actions : List Action) (notifyList : Option (List NotifyEntry))
    (errmsg : Option String) (st : St) : BitVec 32 × St :=
  match actionLoop env 0 actions
      ⟨.null, sieveOk, true, errmsg, { st with actionsString := "Action(s) taken:\n".toList }⟩ with
  | .internalError st => (sieveInternalError, st)
  | .fallthrough l => doSieveError env ⟨l.ret, notifyList, l.lastaction, l.implicitKeep, l.errmsg, l.st⟩

/-! ## `sieve_execute_bytecode` -/

/-- What `sieve_eval_bc` hands back: its return code, `errmsg`, the IMAP flags it left in
the unnamed variable frame, and the three lists it filled. -/
structure Eval where
  ret : BitVec 32
  errmsg : Option String
  imapflags : List String
  actions : List Action
  notifyList : List NotifyEntry
  duptrackList : List DuptrackEntry

/-- The `track` calls of the duplicate-tracking loop: one per entry with an id. -/
def trackCalls (d : List DuptrackEntry) : List Call :=
  d.filterMap fun e => e.id.map fun id => .track ⟨id, e.seconds⟩

/-- The duplicate-tracking loop at the end of `sieve_execute_bytecode`. -/
def trackDuplicates (interp : Interp) (d : List DuptrackEntry) (r : BitVec 32 × St) :
    BitVec 32 × St :=
  if interp.duplicate ∧ r.1 = sieveOk then (r.1, { r.2 with calls := r.2.calls ++ trackCalls d })
  else r

/-- The run after the three lists were allocated: evaluation, then the actions or, when
evaluation failed, straight to `do_sieve_error`. -/
def evalAndDispatch (interp : Interp) (msg : Message) (host : Host) (ev : Eval) (st : St) :
    BitVec 32 × St :=
  let env : Env := ⟨interp, msg, host, ev.imapflags⟩
  let notifyList := if interp.notify then some ev.notifyList else none
  if ev.ret.toInt < 0 then doSieveError env ⟨sieveRunError, notifyList, .null, false, ev.errmsg, st⟩
  else doActionList env ev.actions notifyList ev.errmsg st

/-- `sieve_execute_bytecode` on an interpreter: its result code, and the run's state (the
callbacks made, the trace, and the interpreter's `lastitem` afterwards). -/
def sieveExecuteBytecode (interp : Interp) (msg : Message) (host : Host) (ev : Eval) :
    BitVec 32 × St :=
  let st : St := ⟨[], [], interp.lastitem⟩
  let nomem (notifyList : Option (List NotifyEntry)) :=
    doSieveError ⟨interp, msg, host, []⟩ ⟨sieveNomem, notifyList, .null, false, none, st⟩
  if interp.duplicate ∧ ¬host.allocDuptrack then nomem none
  else if interp.notify ∧ ¬host.allocNotify then nomem none
  else if ¬host.allocActions then
    trackDuplicates interp [] (nomem (if interp.notify then some [] else none))
  else trackDuplicates interp ev.duptrackList (evalAndDispatch interp msg host ev st)

end CyrusSieve
