import CyrusSieve.Model.Execute

/-!
# What a run is observed by

The spec's account of the dispatcher speaks of which callbacks were made, of actions that
were "dispatched and succeeded" strictly in list order, of notifications that "were sent",
and of evaluation having "returned". This file gives each of those words one definition,
written from the spec's description rather than from the code, so that the theorems
compare the two.

`Act.succeeds` is the heart of it: an action succeeds when its callback is registered
and answers `SIEVE_OK`, and a vacation also when `autorespond` answers `SIEVE_DONE`, as the
spec says. A discard with no callback succeeds too. That one is the code's, not the spec's:
`do_action_list` treats the discard callback as optional (`/* discard is optional */`),
where the spec's capability table says an unset capability fails its action with
`InternalError`.
-/

namespace CyrusSieve

/-- A callback of the action loop. -/
def Call.isAction : Call → Bool
  | .reject _ | .fileinto _ | .snooze | .keep _ | .redirect _ | .discard | .autorespond
  | .sendResponse => true
  | _ => false

/-- The notify callback. -/
def Call.isNotify : Call → Bool
  | .notify _ => true
  | _ => false

/-- The keep callback called as the implicit keep. -/
def Call.isImplicitKeep : Call → Bool
  | .implicitKeep _ => true
  | _ => false

/-- The `execute_err` callback. -/
def Call.isExecuteErr : Call → Bool
  | .executeErr _ => true
  | _ => false

/-- The duplicate tracker's `track` callback. -/
def Call.isTrack : Call → Bool
  | .track _ => true
  | _ => false

/-- The action at position `i` is dispatched and succeeds under the host's answers. -/
def Act.succeeds (interp : Interp) (host : Host) (i : Nat) : Act → Bool
  | .reject _ | .ereject _ => interp.reject && (host.action i).code = sieveOk
  | .fileinto _ => interp.fileinto && (host.action i).code = sieveOk
  | .snooze => interp.snooze && (host.action i).code = sieveOk
  | .keep _ => interp.keep && (host.action i).code = sieveOk
  | .redirect _ => interp.redirect && (host.action i).code = sieveOk
  | .discard => !interp.discard || (host.action i).code = sieveOk
  | .vacation => interp.vacation && ((host.action i).code = sieveDone ||
      (host.action i).code = sieveOk && (host.sendResponse i).code = sieveOk)
  | .none => true
  | .null | .setflag | .addflag | .removeflag | .mark | .unmark | .notify | .denotify => false

/-- Every action of the list, the first at position `i`, is dispatched and succeeds. -/
def allSucceed (interp : Interp) (host : Host) (i : Nat) : List Action → Bool
  | [] => true
  | a :: as => a.act.succeeds interp host i && allSucceed interp host (i + 1) as

/-- The callbacks the action at position `i` is given when it is dispatched: its own
callback, with the argument it reads from the action; none for a discard without a callback
or for a kind that has none; for a vacation, `autorespond`, and `send_response` exactly when
`autorespond` answered `SIEVE_OK`. -/
def Act.callbacks (interp : Interp) (host : Host) (i : Nat) : Act → List Call
  | .reject msg | .ereject msg => [.reject msg]
  | .fileinto mailbox => [.fileinto mailbox]
  | .snooze => [.snooze]
  | .keep ctx => [.keep ctx]
  | .redirect addr => [.redirect addr]
  | .discard => if interp.discard then [.discard] else []
  | .vacation => .autorespond :: if (host.action i).code = sieveOk then [.sendResponse] else []
  | .none | .null | .setflag | .addflag | .removeflag | .mark | .unmark | .notify | .denotify => []

/-- The walk over the action list, the first at position `i`: the callbacks of each action
in list order, up to and including the first action that does not succeed. -/
def walkCalls (interp : Interp) (host : Host) (i : Nat) : List Action → List Call
  | [] => []
  | a :: as => a.act.callbacks interp host i ++
      if a.act.succeeds interp host i then walkCalls interp host (i + 1) as else []

/-- The interpreter has the callback the action's case needs, if any (a discard's is
optional). -/
def Interp.handles (interp : Interp) : Act → Bool
  | .reject _ | .ereject _ => interp.reject
  | .fileinto _ => interp.fileinto
  | .snooze => interp.snooze
  | .keep _ => interp.keep
  | .redirect _ => interp.redirect
  | .vacation => interp.vacation
  | _ => true

/-- What the case of an action leaves in `interp->lastitem`: the reason of a reject, the
mailbox of a fileinto and the address of a redirect; `NULL` after a snooze, a keep, a discard
or a vacation; nothing for a kind whose case does not touch it. -/
def Act.lastitem : Act → Option (Option String)
  | .reject msg | .ereject msg => some (some msg)
  | .fileinto mailbox => some (some mailbox)
  | .redirect addr => some (some addr)
  | .snooze | .keep _ | .discard | .vacation => some Option.none
  | .none | .null | .setflag | .addflag | .removeflag | .mark | .unmark | .notify | .denotify =>
    Option.none

/-- `interp->lastitem` after the walk of the action list from position `i`, starting at `li`:
every action dispatched leaves its item, and the walk stops after the first that does not
succeed, or before one whose callback is missing. -/
def walkLastitem (interp : Interp) (host : Host) (i : Nat) (li : Option String) :
    List Action → Option String
  | [] => li
  | a :: as =>
    if interp.handles a.act then
      if a.act.succeeds interp host i then walkLastitem interp host (i + 1) (a.act.lastitem.getD li) as
      else a.act.lastitem.getD li
    else li

/-- The three out-lists were allocated, so evaluation ran. -/
def Host.allocates (host : Host) (interp : Interp) : Bool :=
  (!interp.duplicate || host.allocDuptrack) && (!interp.notify || host.allocNotify) &&
    host.allocActions

/-- Evaluation ran and returned a non-negative code. -/
def Eval.returned (ev : Eval) (interp : Interp) (host : Host) : Bool :=
  host.allocates interp && decide (0 ≤ ev.ret.toInt)

/-- Walking the list from position `i`, every action is dispatched and succeeds until one
whose callback the interpreter does not have. -/
def reachesUnhandled (interp : Interp) (host : Host) (i : Nat) : List Action → Bool
  | [] => false
  | a :: as => !interp.handles a.act ||
      a.act.succeeds interp host i && reachesUnhandled interp host (i + 1) as

/-- Evaluation returned, and the walk of its action list then reaches an action whose
callback is missing. -/
def Eval.returnsEarly (ev : Eval) (interp : Interp) (host : Host) : Bool :=
  ev.returned interp host && reachesUnhandled interp host 0 ev.actions

/-- The method, options, priority and message of a notify entry are all set. -/
def NotifyEntry.complete (n : NotifyEntry) : Bool :=
  n.method.isSome && n.options.isSome && n.priority.isSome && n.message.isSome

/-- `send_notify_callback` returns `SIEVE_OK` for the entry at position `j`. -/
def NotifyEntry.sent (n : NotifyEntry) (host : Host) (j : Nat) : Bool :=
  n.complete && (host.notify j).code = sieveOk

/-- Every active entry of the list, the first at position `j`, is sent. -/
def allSent (host : Host) (j : Nat) : List NotifyEntry → Bool
  | [] => true
  | n :: ns => (!n.isactive || n.sent host j) && allSent host (j + 1) ns

end CyrusSieve
