import CyrusSieve.Spec.Observe

/-!
# The operator trace as it would be had nothing been truncated

`actions_string` is a buffer of `ACTIONS_STRING_LEN` bytes. `do_action_list` starts it
with a `strcpy` of its header, and every later write, in `do_action_list` and in
`do_sieve_error`, is an `snprintf` at the end of what it holds, bounded by the room left.
The spec speaks of the buffer as a silently truncated copy of the untruncated
concatenation of those lines.

This file defines that concatenation as a ghost of the run: the texts a run hands
`snprintf`, in order. Whether a line is written is decided by the model itself (the pass
of the action loop, the activation of `do_sieve_error`), so what is read off the source a
second time is only the texts. `Proofs/Trace.lean` proves that the buffer of every run is
the truncating fold of these texts. Beside them stands the spec's own account of the action
loop's part, `walkLines`: the line of each action that succeeds, up to the first that does
not, as `walkCalls` lists its callbacks.
-/

namespace CyrusSieve

/-- `snprintf (s + strlen (s), ACTIONS_STRING_LEN - strlen (s), ...)` of the text `t` on
the trace `s`, as `St.append` does it. -/
def traceAppend (s t : List Char) : List Char := s ++ snprintf (actionsStringLen - s.length) t

/-- The trace `s` after `snprintf`s of the texts `ts`, in order. -/
def appendAll (s : List Char) (ts : List (List Char)) : List Char := ts.foldl traceAppend s

@[simp] theorem St.append_actionsString (st : St) (t : List Char) :
    (st.append t).actionsString = traceAppend st.actionsString t := rfl

@[simp] theorem St.call_actionsString (st : St) (c : Call) :
    (st.call c).actionsString = st.actionsString := rfl

@[simp] theorem appendAll_nil (s : List Char) : appendAll s [] = s := rfl

@[simp] theorem appendAll_singleton (s t : List Char) : appendAll s [t] = traceAppend s t := rfl

@[simp] theorem appendAll_append (s : List Char) (ts ts' : List (List Char)) :
    appendAll s (ts ++ ts') = appendAll (appendAll s ts) ts' := List.foldl_append _ _ _ _

/-- The line the pass for an action at position `i` writes when it leaves `ret` at
`SIEVE_OK`. -/
def Act.traceLines (host : Host) (i : Nat) : Act → List (List Char)
  | .reject msg => [("Rejected with: " ++ msg ++ "\n").toList]
  | .ereject msg => [("eRejected with: " ++ msg ++ "\n").toList]
  | .fileinto mailbox => [("Filed into: " ++ mailbox ++ "\n").toList]
  | .snooze => ["Snoozed\n".toList]
  | .keep _ => ["Kept\n".toList]
  | .redirect addr => [("Redirected to " ++ addr ++ "\n").toList]
  | .discard => ["Discarded\n".toList]
  | .vacation => [if (host.action i).code = sieveDone then "Vacation reply suppressed\n".toList
      else "Sent vacation reply\n".toList]
  | .none | .null | .setflag | .addflag | .removeflag | .mark | .unmark | .notify | .denotify => []

/-- The lines of the spec's walk of the action list, the first at position `i`: the line of
each action that is dispatched and succeeds, in list order, up to the first that does not. -/
def walkLines (interp : Interp) (host : Host) (i : Nat) : List Action → List (List Char)
  | [] => []
  | a :: as => if a.act.succeeds interp host i then
      a.act.traceLines host i ++ walkLines interp host (i + 1) as else []

/-- The lines of the action loop from position `i`: a pass writes its line exactly when
it leaves `ret` at `SIEVE_OK`, which is also when the loop goes on. -/
def loopLines (env : Env) (i : Nat) : List Action → Loop → List (List Char)
  | [], _ => []
  | a :: as, l =>
    match actionStep env i a l with
    | none => []
    | some l' =>
      if l'.ret ≠ sieveOk then [] else a.act.traceLines env.host i ++ loopLines env (i + 1) as l'

/-- The failure line the first statement of `do_sieve_error` writes. -/
def ErrorArgs.failureLines (a : ErrorArgs) : List (List Char) :=
  if a.ret ≠ sieveOk then [failureLine a.lastaction a.errmsg a.ret] else []

/-- The lines of the activations of `do_sieve_error`, on a budget of `n`: each writes its
failure line, and the last writes `Kept` when it finishes with the implicit keep on. -/
def errorLines (env : Env) : Nat → ErrorArgs → List (List Char)
  | 0, _ => []
  | n + 1, a =>
    a.failureLines ++
      match errorStep env a with
      | .done _ _ => if a.implicitKeep then ["Kept\n".toList] else []
      | .again a' => errorLines env n a'

/-- The lines of `do_sieve_error`. -/
def doSieveErrorLines (env : Env) (a : ErrorArgs) : List (List Char) :=
  errorLines env (a.measure env + 1) a

/-- The lines of `do_action_list` after its `strcpy`. -/
def doActionListLines (env : Env) (actions : List Action)
    (notifyList : Option (List NotifyEntry)) (errmsg : Option String) (st : St) :
    List (List Char) :=
  let l₀ : Loop := ⟨.null, sieveOk, true, errmsg, { st with actionsString := "Action(s) taken:\n".toList }⟩
  loopLines env 0 actions l₀ ++
    match actionLoop env 0 actions l₀ with
    | .internalError _ => []
    | .fallthrough l =>
      doSieveErrorLines env ⟨l.ret, notifyList, l.lastaction, l.implicitKeep, l.errmsg, l.st⟩

/-- The trace of a run of `sieve_execute_bytecode`: what the buffer holds before the first
`snprintf` (empty, or the header `do_action_list` copies in) and the texts of the
`snprintf`s, in order. -/
def runTrace (interp : Interp) (msg : Message) (host : Host) (ev : Eval) :
    List Char × List (List Char) :=
  let st : St := ⟨[], [], interp.lastitem⟩
  let nomem (notifyList : Option (List NotifyEntry)) :=
    ([], doSieveErrorLines ⟨interp, msg, host, []⟩ ⟨sieveNomem, notifyList, .null, false, none, st⟩)
  if interp.duplicate ∧ ¬host.allocDuptrack then nomem none
  else if interp.notify ∧ ¬host.allocNotify then nomem none
  else if ¬host.allocActions then nomem (if interp.notify then some [] else none)
  else
    let env : Env := ⟨interp, msg, host, ev.imapflags⟩
    let notifyList := if interp.notify then some ev.notifyList else none
    if ev.ret.toInt < 0 then
      ([], doSieveErrorLines env ⟨sieveRunError, notifyList, .null, false, ev.errmsg, st⟩)
    else ("Action(s) taken:\n".toList, doActionListLines env ev.actions notifyList ev.errmsg st)

end CyrusSieve
