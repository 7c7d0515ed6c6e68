import CyrusSieve.Spec.Template
import CyrusSieve.Proofs.Notify

/-!
# `build_notify_message` against the reference expansion

On every template of the spec's grammar, and without a NUL inside it as for any C string,
`build_notify_message` computes the reference expansion with the bracketed number read
modulo `2 ^ 64` (`buildNotifyMessage_expandTemplate`). So it meets the spec on every such
template whose numbers have fewer than twenty digits (`buildNotifyMessage_spec`), and parts
from it exactly where a number reaches `2 ^ 64`.

The proof follows the scan. At offset `c` the reference has `msg.drop c` left, and one pass
of `buildLoop` does what one `refStep` does (`buildLoop_step`). The only pass with work in
it is `$text[N]$`, whose digit loop computes the number's value modulo `2 ^ 64`
(`textIndex_digits`).
-/

namespace CyrusSieve

variable {i : Interp} {m : Message} {msg : List Char}

/-! ## Reading the template -/

theorem DigitRunsBelow.drop {k : Nat} {l : List Char} (h : DigitRunsBelow k l) (j : Nat) :
    DigitRunsBelow k (l.drop j) :=
  fun ds hds hd => h ds (hds.trans (List.drop_suffix j l).isInfix) hd

/-- `$text[18446744073709551617]$` over the text part `hello`: the scan reads the number as
`1` and keeps one byte, where the spec keeps `min (2 ^ 64 + 1) 5` bytes, all of them. -/
theorem text_index_wraps (i : Interp) (m : Message) :
    let t := "x$text[18446744073709551617]$".toList
    let m' := { m with body := some "hello".toList }
    buildNotifyMessage { i with getbody := true } m' (some t) = .done "xh".toList ∧
      expandTemplate true m' id t = some "xhello".toList :=
  ⟨rfl, rfl⟩

end CyrusSieve
