import Mathlib.Data.BitVec

/-!
# The data the dispatcher of `script.c` reads and writes

Status codes are C `int`s, so they are `BitVec 32` here: `do_sieve_error` and
`do_action_list` fold results together with `|=`, and the only thing any caller asks
of the folded value is whether it is still `SIEVE_OK`.

The host is everything `script.c` calls and does not contain. Its callbacks are
answered by call site: the callback of the action at position `i` of the action list
gets `Host.action i`, the notification at position `j` of the notify list gets
`Host.notify j`, the implicit keep gets `Host.keep`, and `execute_err` is answered by the
text it is handed. The action loop and the notify loop visit each position once, and the
implicit keep is made at most once (`sieveExecuteBytecode_implicitKeeps`), so for those
sites quantifying over `Host` is quantifying over every answer a host can give.
`execute_err` is the exception: a run can call it twice (`sieveExecuteBytecode_calls`),
and a host that answers one text two ways is not covered.
-/

namespace CyrusSieve

/-! ## Status codes -/

/-- `SIEVE_OK`. -/
def sieveOk : BitVec 32 := 0

/-- Modelled from the spec: the failure codes of `sieve_interface.h`, which is not under
src/. The spec names them and fixes only `Ok = 0`; they are modelled as consecutive
negative codes of one error table, so each is nonzero and no two are equal. -/
def sieveFail : BitVec 32 := BitVec.ofInt 32 (-1237848064)

/-- Modelled from the spec, as `sieveFail`. -/
def sieveNotFinalized : BitVec 32 := BitVec.ofInt 32 (-1237848063)

/-- Modelled from the spec, as `sieveFail`. -/
def sieveParseError : BitVec 32 := BitVec.ofInt 32 (-1237848062)

/-- Modelled from the spec, as `sieveFail`. -/
def sieveRunError : BitVec 32 := BitVec.ofInt 32 (-1237848061)

/-- Modelled from the spec, as `sieveFail`. -/
def sieveInternalError : BitVec 32 := BitVec.ofInt 32 (-1237848060)

/-- Modelled from the spec, as `sieveFail`. -/
def sieveNomem : BitVec 32 := BitVec.ofInt 32 (-1237848059)

/-- Modelled from the spec, as `sieveFail`. -/
def sieveDone : BitVec 32 := BitVec.ofInt 32 (-1237848058)

/-- Modelled from the spec, as `sieveFail`. -/
def sieveScriptReloaded : BitVec 32 := BitVec.ofInt 32 (-1237848057)

@[simp] theorem sieveFail_ne_ok : sieveFail ≠ sieveOk := by decide

@[simp] theorem sieveParseError_ne_ok : sieveParseError ≠ sieveOk := by decide

@[simp] theorem sieveRunError_ne_ok : sieveRunError ≠ sieveOk := by decide

@[simp] theorem sieveInternalError_ne_ok : sieveInternalError ≠ sieveOk := by decide

@[simp] theorem sieveNomem_ne_ok : sieveNomem ≠ sieveOk := by decide

@[simp] theorem sieveOk_ne_done : sieveOk ≠ sieveDone := by decide

@[simp] theorem sieveDone_ne_ok : sieveDone ≠ sieveOk := by decide

@[simp] theorem sieveOk_ne_reloaded : sieveOk ≠ sieveScriptReloaded := by decide

@[simp] theorem sieveFail_ne_reloaded : sieveFail ≠ sieveScriptReloaded := by decide

/-- `ACTIONS_STRING_LEN`: the size of the operator trace buffer. -/
def actionsStringLen : Nat := 4096

/-- `ERR_BUF_SIZE`: the size of the buffer handed to `execute_err`. -/
def errBufSize : Nat := 1024

/-- `sieve_errstr`. -/
def sieveErrstr (code : BitVec 32) : String :=
  if code = sieveFail then "Generic Error"
  else if code = sieveNotFinalized then "Sieve not finalized"
  else if code = sieveParseError then "Parse error"
  else if code = sieveRunError then "Run error"
  else if code = sieveInternalError then "Internal Error"
  else if code = sieveNomem then "No memory"
  else "Unknown error"

/-- A `|=` leaves a status `SIEVE_OK` exactly when both sides were. -/
theorem or_eq_sieveOk {a b : BitVec 32} : a ||| b = sieveOk ↔ a = sieveOk ∧ b = sieveOk := by
  refine ⟨fun h => ?_, fun ⟨ha, hb⟩ => by rw [ha, hb]; rfl⟩
  have hi (i : Nat) : a.getLsbD i = false ∧ b.getLsbD i = false := by
    simpa [sieveOk] using congrArg (BitVec.getLsbD · i) h
  exact ⟨BitVec.eq_of_getLsbD_eq fun i => by simp [sieveOk, (hi i).1],
    BitVec.eq_of_getLsbD_eq fun i => by simp [sieveOk, (hi i).2]⟩

/-! ## Actions -/

/-- `action_t`. `ACTION_NULL` is `-1` (in `message.h`, which is not under src/), the value
`lastaction` starts from: `lastaction == -1` asks whether it is still `ACTION_NULL`, so a
run whose last action was a NULL entry reports as one that executed none. -/
inductive ActionT
  | null | none | reject | ereject | fileinto | snooze | keep | redirect | discard
  | vacation | setflag | addflag | removeflag | mark | unmark | notify | denotify
  deriving DecidableEq, Repr

/-- `action_to_string`. Its `"Unknown"` default has no case here: `ActionT` is closed. -/
def actionToString : ActionT → String
  | .null => "NULL" | .none => "None" | .reject => "Reject" | .ereject => "eReject"
  | .fileinto => "Fileinto" | .snooze => "Snooze" | .keep => "Keep"
  | .redirect => "Redirect" | .discard => "Discard" | .vacation => "Vacation"
  | .setflag => "Setflag" | .addflag => "Addflag" | .removeflag => "Removeflag"
  | .mark => "Mark" | .unmark => "Unmark" | .notify => "Notify" | .denotify => "Denotify"

/-- `sieve_keep_context_t`: the IMAP flags and the edited header section. -/
structure KeepContext where
  imapflags : List String
  headers : Option String
  deriving DecidableEq, Repr

/-- The kind `a` of an action-list entry together with the member of its union `u` that
the dispatcher reads: the reason of a reject, the mailbox of a fileinto, the address of a
redirect, the context of an explicit keep. -/
inductive Act
  | reject (msg : String) | ereject (msg : String) | fileinto (mailbox : String)
  | snooze | keep (keep : KeepContext) | redirect (addr : String) | discard | vacation
  | none | null | setflag | addflag | removeflag | mark | unmark | notify | denotify
  deriving DecidableEq, Repr

/-- `a->a`. -/
def Act.kind : Act → ActionT
  | .reject _ => .reject | .ereject _ => .ereject | .fileinto _ => .fileinto
  | .snooze => .snooze | .keep _ => .keep | .redirect _ => .redirect
  | .discard => .discard | .vacation => .vacation | .none => .none | .null => .null
  | .setflag => .setflag | .addflag => .addflag | .removeflag => .removeflag
  | .mark => .mark | .unmark => .unmark | .notify => .notify | .denotify => .denotify

/-- An entry of `action_list_t`. -/
structure Action where
  act : Act
  cancel_keep : Bool
  deriving DecidableEq, Repr

/-! ## Notifications and duplicate tracking -/

/-- An entry of `notify_list_t`; a `NULL` string field is `none`. -/
structure NotifyEntry where
  isactive : Bool
  method : Option String
  options : Option (List String)
  priority : Option String
  message : Option (List Char)
  from_ : Option String
  deriving DecidableEq, Repr

/-- The `options` of a notify context: the entry's own list, or the `static strarray_t`
of `send_notify_callback`, whose `count` stays 0 and whose `data` is what `getenvelope`
wrote for `From`. -/
inductive NotifyOptions
  | entry (opts : List String)
  | envFrom (data : Option (List String))
  deriving DecidableEq, Repr

/-- `sieve_notify_context_t`. The message is `none` when `build_notify_message` read past
the template's terminating NUL: from there on it appended whatever memory held, and the
process may fault before the call is made. -/
structure NotifyContext where
  method : String
  from_ : Option String
  options : NotifyOptions
  priority : String
  message : Option (List Char)
  fname : Option String
  deriving DecidableEq, Repr

/-- An entry of `duptrack_list_t`. -/
structure DuptrackEntry where
  id : Option String
  seconds : Nat
  deriving DecidableEq, Repr

/-- `sieve_duplicate_context_t`. -/
structure DuplicateContext where
  id : String
  seconds : Nat
  deriving DecidableEq, Repr

/-! ## The interpreter, the message and the host -/

/-- `sieve_interp_t` as the dispatcher sees it: which optional callbacks are registered,
`edited_headers`, and `lastitem`, the one field the dispatcher writes. -/
structure Interp where
  reject : Bool
  fileinto : Bool
  snooze : Bool
  keep : Bool
  redirect : Bool
  discard : Bool
  vacation : Bool
  notify : Bool
  executeErr : Bool
  duplicate : Bool
  getbody : Bool
  getfname : Bool
  editedHeaders : Bool
  lastitem : Option String
  deriving DecidableEq, Repr

/-- What the interpreter's message accessors return for the message of the run:
`getheader` and `getenvelope` by field, the decoded body of the first text part
`getbody` hands back, `getfname`, `getheadersection`, and `charset_parse_mimeheader`. -/
structure Message where
  getheader : String → Option (List String)
  getenvelope : String → Option (List String)
  body : Option (List Char)
  fname : Option String
  headersection : Option String
  decode : String → String

/-- What a callback returns, and what it leaves in `*errmsg` (`none`: untouched). -/
structure Reply where
  code : BitVec 32
  errmsg : Option (Option String)
  deriving DecidableEq, Repr

/-- The host's answers: the allocators' results (`new_duptrack_list`, `new_notify_list`,
`new_action_list` returned a list) and each callback's reply, by call site. -/
structure Host where
  allocDuptrack : Bool
  allocNotify : Bool
  allocActions : Bool
  action : Nat → Reply
  sendResponse : Nat → Reply
  notify : Nat → Reply
  keep : Reply
  executeErr : String → BitVec 32

/-- One callback invocation, with the argument the callback receives. The implicit keep
of `do_sieve_error` goes to the same `keep` callback as an explicit keep; the trace tells
the two apart by call site. -/
inductive Call
  | reject (msg : String) | fileinto (mailbox : String) | snooze | keep (ctx : KeepContext)
  | redirect (addr : String) | discard | autorespond | sendResponse
  | notify (nc : NotifyContext) | executeErr (msg : String)
  | implicitKeep (ctx : KeepContext) | track (dc : DuplicateContext)
  deriving DecidableEq, Repr

/-- An acquisition (an allocation, an `open`, a mapping) or a release (a `free`, a `close`,
an unmapping) of a resource of kind `α`. -/
inductive Own (α : Type)
  | acquire (x : α)
  | release (x : α)
  deriving DecidableEq, Repr

/-- The log `evs` acquired each resource as often as it released it, and once more for each
time `held` lists it: what is still held is `held`, and nothing was released that was not
acquired. -/
def Own.Accounts {α : Type} [DecidableEq α] (evs : List (Own α)) (held : List α) : Prop :=
  ∀ x, evs.count (.acquire x) = evs.count (.release x) + held.count x

/-- `snprintf (buf, size, ...)` of the text `t`: at most `size - 1` characters land. -/
def snprintf (size : Nat) (t : List Char) : List Char := t.take (size - 1)

theorem length_snprintf_le (size : Nat) (t : List Char) :
    (snprintf size t).length ≤ size - 1 := by
  simp [snprintf]

end CyrusSieve
