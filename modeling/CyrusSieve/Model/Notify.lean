import CyrusSieve.Model.Types

/-!
# `build_notify_message` and `send_notify_callback`

The template is the bytes of a C string, `msg`, and the scanning pointer `c` is an
offset into it. `peek msg c` is `*c`: the byte at `c` while `c` is inside the string,
the terminating NUL at `c = msg.length`, and nothing beyond. Reading beyond is undefined
behaviour in C; the model stops there and reports the offset it read (`Scan.overrun`),
so "the scan stays inside the string" is the statement that no run ends in `overrun`. A
notification whose template overran carries no message text (`Scan.text`): what C hands the
callback then, if it gets that far, depends on the bytes after the template.

Both loops are structural: the digit loop of `$text[` walks the bytes left in the
string, and the main loop, whose `c` grows on every pass, runs on `msg.length + 2` units
of fuel, which it cannot exhaust before `c` has left the string.
-/

namespace CyrusSieve

/-- `*c`: the byte at offset `c` of the C string `msg`, terminator included. -/
def peek (msg : List Char) (c : Nat) : Option Char := (msg ++ ['\x00'])[c]?

/-- `!strncasecmp (c, tok, strlen (tok))` for a token without NUL: the text at `c`
begins with `tok`, letters compared without case. -/
def startsWithCI (tok rest : List Char) : Bool :=
  (tok.map Char.toLower).isPrefixOf (rest.map Char.toLower)

/-- `*c - '0'`, converted to `size_t`: `char` is signed, so bytes from 128 up count
below zero. -/
def digitValue (ch : Char) : BitVec 64 :=
  BitVec.ofInt 64 ((if ch.toNat < 128 then (ch.toNat : Int) else ch.toNat - 256) - 48)

/-- `while (*c != ']') n = n * 10 + (*c++ - '0');` over `mem`, the template's bytes from
offset `c` on (terminator included): the offset of the `]` and `n`, or the first offset it
reads past the terminator. -/
def textIndex : List Char → Nat → BitVec 64 → Except Nat (Nat × BitVec 64)
  | [], c, _ => .error c
  | ch :: mem, c, n =>
    if ch = ']' then .ok (c, n) else textIndex mem (c + 1) (n * 10 + digitValue ch)

/-- `add_header`: the decoded first value of the header (`isenv`: of the envelope field),
or nothing when there is none. -/
def addHeader (m : Message) (isenv : Bool) (header : String) : List Char :=
  match if isenv then m.getenvelope header else m.getheader header with
  | some (v :: _) => (m.decode v).toList
  | _ => []

/-- What the `$text` branch appends: the first text part, cut to `n` bytes when `n` is
nonzero and the part is longer. -/
def textPart (m : Message) (n : BitVec 64) : List Char :=
  match m.body with
  | some b => if n ≠ 0 ∧ b.length > n.toNat then b.take n.toNat else b
  | none => []

/-- `strcspn (c + 1, "$") + 1`: the length of the plain text at `c`, up to the next `$`. -/
def plainLength (msg : List Char) (c : Nat) : Nat :=
  ((msg.drop (c + 1)).takeWhile fun x => x ≠ '$' && x ≠ '\x00').length + 1

/-- Where a scan of `build_notify_message` ended: at the terminator, or at the first offset
it read past it; either way with the text appended so far. -/
inductive Scan
  | done (out : List Char)
  | overrun (c : Nat) (out : List Char)
  deriving DecidableEq, Repr

/-- The text of a scan that stopped at the terminator. One that read past it went on
appending bytes the template does not hold, which the model does not know. -/
def Scan.text : Scan → Option (List Char)
  | .done out => some out
  | .overrun _ _ => none

/-- The `while (*c)` loop of `build_notify_message`, from offset `c`, with `out` appended.
Every pass moves `c` forward, so `c + fuel` never drops below `msg.length + 2`: out of
fuel, `c` is past the terminator and the loop's next read is the overrun returned. -/
def buildLoop (i : Interp) (m : Message) (msg : List Char) : Nat → Nat → List Char → Scan
  | 0, c, out => .overrun c out
  | fuel + 1, c, out =>
    match peek msg c with
    | none => .overrun c out
    | some ch =>
      if ch = '\x00' then .done out
      else if startsWithCI "$from$".toList (msg.drop c) then
        buildLoop i m msg fuel (c + 6) (out ++ addHeader m false "From")
      else if startsWithCI "$env-from$".toList (msg.drop c) then
        buildLoop i m msg fuel (c + 10) (out ++ addHeader m true "From")
      else if startsWithCI "$subject$".toList (msg.drop c) then
        buildLoop i m msg fuel (c + 9) (out ++ addHeader m false "Subject")
      else if i.getbody ∧ startsWithCI "$text".toList (msg.drop c) ∧
          (peek msg (c + 5) = some '[' ∨ peek msg (c + 5) = some '$') then
        if peek msg (c + 5) = some '[' then
          match textIndex ((msg ++ ['\x00']).drop (c + 6)) (c + 6) 0 with
          | .error e => .overrun e out
          | .ok (e, n) => buildLoop i m msg fuel (e + 2) (out ++ textPart m n)
        else buildLoop i m msg fuel (c + 6) (out ++ textPart m 0)
      else
        buildLoop i m msg fuel (c + plainLength msg c)
          (out ++ (msg.drop c).take (plainLength msg c))

/-- `build_notify_message`: a `NULL` template appends nothing. -/
def buildNotifyMessage (i : Interp) (m : Message) : Option (List Char) → Scan
  | none => .done []
  | some msg => buildLoop i m msg (msg.length + 2) 0 []

/-- The notify context `send_notify_callback` builds for an entry, or `none` when it
returns `SIEVE_RUN_ERROR` because the method, options, priority or message is `NULL`. -/
def notifyContext (i : Interp) (m : Message) (n : NotifyEntry) (actionsString : List Char) :
    Option NotifyContext :=
  match n.method, n.options, n.priority, n.message with
  | some method, some options, some priority, some message =>
    some { method, from_ := n.from_, priority
           options := if method = "mailto" ∧ options.head? = some "$env-from$" then
             .envFrom (m.getenvelope "From") else .entry options
           message := (buildNotifyMessage i m (some message)).text.map
             (· ++ "\n\n".toList ++ actionsString)
           fname := if i.getfname then m.fname else none }
  | _, _, _, _ => none

end CyrusSieve
