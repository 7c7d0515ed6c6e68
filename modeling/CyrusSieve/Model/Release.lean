import CyrusSieve.Model.Execute

/-!
# What a run allocates and frees

`sieve_execute_bytecode` allocates up to three lists: the duplicate-tracking list, the
notify list and the action list. Each is released at its own place. The notify list is
freed by the `do_sieve_error` activation that walks it, which then sets it to `NULL` so
that no later activation walks or frees it again. The action list is freed at the end of
the activation that finishes. The duplicate-tracking list is freed at the end of the run,
or at once when the notify list cannot be allocated.

`St` does not record memory, so this file gives a run its log of allocations and frees.
Whether each `free` is reached is decided by the model itself (which activation walks the
notify list, which one finishes, whether the action loop returns early), so what is read
off the source a second time is only where the calls stand.
-/

namespace CyrusSieve

/-- The lists a run allocates. -/
inductive RunList
  | duptrack | notify | actions
  deriving DecidableEq, Repr

/-- `interp->notify && notify_list`: the activation walks the notify list and frees it. -/
def ErrorArgs.walksNotify (env : Env) (a : ErrorArgs) : Bool :=
  env.interp.notify && a.notifyList.isSome

/-- The lists the activations of `do_sieve_error` free, on a budget of `n`, given whether its
`actions` argument is a list: an activation that walks the notify list frees it, and the one
that finishes frees the action list. -/
def errorFrees (env : Env) (actions : Bool) : Nat → ErrorArgs → List RunList
  | 0, _ => []
  | n + 1, a =>
    (if a.walksNotify env then [.notify] else []) ++
      match errorStep env a with
      | .done _ _ => if actions then [.actions] else []
      | .again a' => errorFrees env actions n a'

/-- The lists `do_sieve_error` frees. -/
def doSieveErrorFrees (env : Env) (actions : Bool) (a : ErrorArgs) : List RunList :=
  errorFrees env actions (a.measure env + 1) a

/-- The lists `do_action_list` frees: none when it returns `SIEVE_INTERNAL_ERROR` from its
loop, else those of the `do_sieve_error` it hands the action list to. -/
def doActionListFrees (env : Env) (actions : List Action)
    (notifyList : Option (List NotifyEntry)) (errmsg : Option String) (st : St) :
    List RunList :=
  match actionLoop env 0 actions
      ⟨.null, sieveOk, true, errmsg, { st with actionsString := "Action(s) taken:\n".toList }⟩ with
  | .internalError _ => []
  | .fallthrough l =>
    doSieveErrorFrees env true ⟨l.ret, notifyList, l.lastaction, l.implicitKeep, l.errmsg, l.st⟩

/-- The allocations (`new_*_list` returning a list) and frees (`free_*_list`) of a run of
`sieve_execute_bytecode`, in order. The allocators that return `NULL` allocate nothing. -/
def runMem (interp : Interp) (msg : Message) (host : Host) (ev : Eval) : List (Own RunList) :=
  let st : St := ⟨[], [], interp.lastitem⟩
  let nomem (notifyList : Option (List NotifyEntry)) :=
    (doSieveErrorFrees ⟨interp, msg, host, []⟩ false
      ⟨sieveNomem, notifyList, .null, false, none, st⟩).map .release
  let dup : List RunList := if interp.duplicate then [.duptrack] else []
  let nl : List RunList := if interp.notify then [.notify] else []
  if interp.duplicate ∧ ¬host.allocDuptrack then nomem none
  else if interp.notify ∧ ¬host.allocNotify then dup.map .acquire ++ dup.map .release ++ nomem none
  else if ¬host.allocActions then
    (dup ++ nl).map .acquire ++ nomem (if interp.notify then some [] else none) ++ dup.map .release
  else
    let env : Env := ⟨interp, msg, host, ev.imapflags⟩
    let notifyList := if interp.notify then some ev.notifyList else none
    (dup ++ nl ++ [RunList.actions]).map .acquire ++
      (if ev.ret.toInt < 0 then
        doSieveErrorFrees env true ⟨sieveRunError, notifyList, .null, false, ev.errmsg, st⟩
      else doActionListFrees env ev.actions notifyList ev.errmsg st).map .release ++
      dup.map .release

end CyrusSieve
