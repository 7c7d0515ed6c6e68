import CyrusSieve.Model.Notify

/-!
# The reference expansion of a notify template

The spec describes `build_notify_message` as a left-to-right scan. A token that begins at the
current position is replaced by its value: the decoded first `From`, envelope `From` or
`Subject` value (empty when absent); for `$text$` the first text part, and for `$text[N]$`
its first `min N length` bytes. Tokens match without case, and the `$text` ones only when
`getbody` is registered. Anywhere else the text up to the next `$` is copied verbatim.

`refStep` is one step of that scan and `refExpand` the scan; both follow the spec's words
rather than the code. Two things the spec leaves open are fixed here: `N = 0` keeps the
whole part, and a `$text[` with `getbody` that does not open a `$text[N]$` token lies outside
the spec's grammar, which `refExpand` answers with `none`. The bracketed number is read by
`readN` from its mathematical value: the spec reads it as it is, `id`.
-/

namespace CyrusSieve

/-- The mathematical value of a decimal digit string. -/
def decimalValue (ds : List Char) : Nat :=
  ds.foldl (fun n d => n * 10 + (d.toNat - '0'.toNat)) 0

/-- Modelled from the spec: the value of `$text[N]$`, the first `min N length` bytes of the
first text part, and of `$text$`, written `N = 0`, all of it. -/
def textValue (m : Message) (N : Nat) : List Char :=
  match m.body with
  | some b => if N = 0 then b else b.take N
  | none => []

/-- The digits of the `$text[N]$` token `rest` opens, if it opens one. -/
def textToken (rest : List Char) : Option (List Char) :=
  match (rest.drop 6).dropWhile Char.isDigit with
  | ']' :: '$' :: _ => some ((rest.drop 6).takeWhile Char.isDigit)
  | _ => none

/-- Modelled from the spec: one step of the reference scan at the head of `rest`, as the text
it stands for and its length; `none` for a `$text[` outside the grammar. -/
def refStep (getbody : Bool) (m : Message) (readN : Nat → Nat) (rest : List Char) :
    Option (List Char × Nat) :=
  if startsWithCI "$from$".toList rest then some (addHeader m false "From", 6)
  else if startsWithCI "$env-from$".toList rest then some (addHeader m true "From", 10)
  else if startsWithCI "$subject$".toList rest then some (addHeader m false "Subject", 9)
  else if getbody ∧ startsWithCI "$text".toList rest ∧ rest[5]? = some '$' then
    some (textValue m 0, 6)
  else if getbody ∧ startsWithCI "$text".toList rest ∧ rest[5]? = some '[' then
    (textToken rest).map fun ds => (textValue m (readN (decimalValue ds)), ds.length + 8)
  else
    let k := ((rest.drop 1).takeWhile (· ≠ '$')).length + 1
    some (rest.take k, k)

/-- Modelled from the spec: the reference scan, `fuel` steps at most. -/
def refExpand (getbody : Bool) (m : Message) (readN : Nat → Nat) :
    Nat → List Char → Option (List Char)
  | _, [] => some []
  | 0, _ :: _ => none
  | fuel + 1, rest@(_ :: _) =>
    match refStep getbody m readN rest with
    | some (v, k) => (v ++ ·) <$> refExpand getbody m readN fuel (rest.drop k)
    | none => none

/-- Modelled from the spec: the reference expansion of a template (every step consumes a
byte, so its length in steps is enough). -/
def expandTemplate (getbody : Bool) (m : Message) (readN : Nat → Nat) (msg : List Char) :
    Option (List Char) :=
  refExpand getbody m readN msg.length msg

example : expandTemplate true ⟨fun _ => none, fun _ => none, some "hello".toList, none, none, id⟩
    id "a $TEXT[3]$ b$".toList = some "a hel b$".toList := by
  decide

/-- Every run of digits in the text has fewer than `k` digits. -/
def DigitRunsBelow (k : Nat) (msg : List Char) : Prop :=
  ∀ ds, ds <:+: msg → (∀ d ∈ ds, d.isDigit = true) → ds.length < k

end CyrusSieve
