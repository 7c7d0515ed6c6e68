import CyrusSieve.Model.Notify

/-!
# Where the template scan reads

`buildLoop` reports an overrun only at an offset past the terminator
(`buildLoop_overrun_past`): its fuel never runs out first, because every pass moves `c`
forward and the fuel starts at `msg.length + 2`. So "the scan stays inside the string" is
exactly "the scan ends in `Scan.done`", and only a scan with `getbody` can fail it
(`buildNotifyMessage_overrun`).

Both are read off one account of what a pass does (`buildLoop_succ_cases`). Every branch
but one lands inside the string: a token branch only fires when the whole token is there,
and the plain branch stops at the next `$` or at the terminator. Without `getbody` the scan
therefore always ends at the terminator (`buildLoop_done`). The `$text`
branch is the exception. Its digit loop looks only for `]`, so a template without one runs
off the end; and after the `]` it skips two bytes without looking at the second, so a `]`
that is the template's last byte puts `c` one past the terminator. Its accumulator is a
`size_t`, so a bracketed number is read modulo `2 ^ 64`.
-/

namespace CyrusSieve

variable {i : Interp} {m : Message} {msg : List Char}

theorem peek_eq_none {c : Nat} : peek msg c = none ↔ msg.length < c := by
  simp only [peek, List.getElem?_eq_none_iff, List.length_append, List.length_singleton]
  omega

theorem peek_length : peek msg msg.length = some '\x00' := by
  simp [peek]

theorem textIndex_error : ∀ {mem : List Char} {c e : Nat} {n : BitVec 64},
    textIndex mem c n = .error e → e = c + mem.length
  | [], _, _, _, h => by cases h; rfl
  | ch :: mem, c, e, n, h => by
    rw [textIndex] at h
    split at h
    · cases h
    · rw [textIndex_error h, List.length_cons]
      omega

theorem textIndex_ok : ∀ {mem : List Char} {c e : Nat} {n k : BitVec 64},
    textIndex mem c n = .ok (e, k) → c ≤ e
  | [], _, _, _, _, h => by cases h
  | ch :: mem, c, e, n, k, h => by
    rw [textIndex] at h
    split at h
    · cases h; rfl
    · exact Nat.le_of_succ_le (textIndex_ok h)

theorem one_le_plainLength (msg : List Char) (c : Nat) : 1 ≤ plainLength msg c := by
  simp [plainLength]

theorem plainLength_le {c : Nat} (hc : c < msg.length) : c + plainLength msg c ≤ msg.length := by
  have h := (List.takeWhile_prefix (fun x => x ≠ '$' && x ≠ '\x00') (l := msg.drop (c + 1))).length_le
  simp only [List.length_drop] at h
  simp only [plainLength]
  omega

theorem startsWithCI_length {tok rest : List Char} (h : startsWithCI tok rest = true) :
    tok.length ≤ rest.length := by
  simpa using (List.isPrefixOf_iff_prefix.mp h).length_le

theorem startsWithCI_drop {tok : List Char} {c : Nat} (hc : c ≤ msg.length)
    (h : startsWithCI tok (msg.drop c) = true) : c + tok.length ≤ msg.length := by
  have := startsWithCI_length h
  rw [List.length_drop] at this
  omega

/-- One pass of the scan at a byte of the buffer: it stops at the terminator, skips a header
token that is all there, handles a `$text` token when `getbody` is registered, or copies the
plain text up to the next `$`. -/
theorem buildLoop_succ_cases (fuel : Nat) {c : Nat} (out : List Char) {ch : Char}
    (hp : peek msg c = some ch) :
    (ch = '\x00' ∧ buildLoop i m msg (fuel + 1) c out = .done out) ∨
    (∃ tok v, tok ≠ [] ∧ startsWithCI tok (msg.drop c) = true ∧
      buildLoop i m msg (fuel + 1) c out = buildLoop i m msg fuel (c + tok.length) (out ++ v)) ∨
    (i.getbody = true ∧
      ((∃ e, textIndex ((msg ++ ['\x00']).drop (c + 6)) (c + 6) 0 = .error e ∧
          buildLoop i m msg (fuel + 1) c out = .overrun e out) ∨
        (∃ e n, textIndex ((msg ++ ['\x00']).drop (c + 6)) (c + 6) 0 = .ok (e, n) ∧
          buildLoop i m msg (fuel + 1) c out = buildLoop i m msg fuel (e + 2) (out ++ textPart m n)) ∨
        buildLoop i m msg (fuel + 1) c out = buildLoop i m msg fuel (c + 6) (out ++ textPart m 0))) ∨
    (ch ≠ '\x00' ∧ buildLoop i m msg (fuel + 1) c out =
      buildLoop i m msg fuel (c + plainLength msg c) (out ++ (msg.drop c).take (plainLength msg c))) := by
  rw [buildLoop, hp]
  dsimp only
  by_cases h₀ : ch = '\x00'
  · exact .inl ⟨h₀, if_pos h₀⟩
  rw [if_neg h₀]
  by_cases h₁ : startsWithCI "$from$".toList (msg.drop c)
  · exact .inr (.inl ⟨_, _, by decide, h₁, if_pos h₁⟩)
  rw [if_neg h₁]
  by_cases h₂ : startsWithCI "$env-from$".toList (msg.drop c)
  · exact .inr (.inl ⟨_, _, by decide, h₂, if_pos h₂⟩)
  rw [if_neg h₂]
  by_cases h₃ : startsWithCI "$subject$".toList (msg.drop c)
  · exact .inr (.inl ⟨_, _, by decide, h₃, if_pos h₃⟩)
  rw [if_neg h₃]
  by_cases h₄ : i.getbody ∧ startsWithCI "$text".toList (msg.drop c) ∧
      (peek msg (c + 5) = some '[' ∨ peek msg (c + 5) = some '$')
  · rw [if_pos h₄]
    refine .inr (.inr (.inl ⟨h₄.1, ?_⟩))
    by_cases h₅ : peek msg (c + 5) = some '['
    · rw [if_pos h₅]
      cases textIndex ((msg ++ ['\x00']).drop (c + 6)) (c + 6) 0 with
      | error e => exact .inl ⟨e, rfl, rfl⟩
      | ok p => exact .inr (.inl ⟨p.1, p.2, rfl, rfl⟩)
    · rw [if_neg h₅]
      exact .inr (.inr rfl)
  rw [if_neg h₄]
  exact .inr (.inr (.inr ⟨h₀, rfl⟩))

/-- Every overrun `buildLoop` reports is a read past the terminator: it never runs out of
fuel inside the string. -/
theorem buildLoop_overrun_past : ∀ {fuel c : Nat} {out : List Char} {e : Nat} {out' : List Char},
    msg.length + 2 ≤ c + fuel → buildLoop i m msg fuel c out = .overrun e out' → msg.length < e
  | 0, c, out, e, out', hf, h => by cases h; omega
  | fuel + 1, c, out, e, out', hf, h => by
    cases hp : peek msg c with
    | none => rw [buildLoop, hp] at h; cases h; exact peek_eq_none.mp hp
    | some ch =>
      rcases buildLoop_succ_cases fuel out hp with
        ⟨-, hb⟩ | ⟨tok, v, htok, -, hb⟩ | ⟨-, ⟨e', he, hb⟩ | ⟨e', n, he, hb⟩ | hb⟩ | ⟨-, hb⟩ <;>
        rw [hb] at h
      · cases h
      · exact buildLoop_overrun_past (by have := List.length_pos.mpr htok; omega) h
      · cases h
        rw [textIndex_error he, List.length_drop, List.length_append, List.length_singleton]
        omega
      · exact buildLoop_overrun_past (by have := textIndex_ok he; omega) h
      · exact buildLoop_overrun_past (by omega) h
      · exact buildLoop_overrun_past (by have := one_le_plainLength msg c; omega) h

theorem buildLoop_done (hb : i.getbody = false) : ∀ {fuel c : Nat} {out : List Char},
    c ≤ msg.length → msg.length + 1 ≤ c + fuel → ∃ out', buildLoop i m msg fuel c out = .done out'
  | 0, c, out, hc, hf => by omega
  | fuel + 1, c, out, hc, hf => by
    obtain ⟨ch, hp⟩ : ∃ ch, peek msg c = some ch :=
      Option.ne_none_iff_exists'.mp fun h => absurd (peek_eq_none.mp h) (by omega)
    rcases buildLoop_succ_cases fuel out hp with
      ⟨-, h⟩ | ⟨tok, v, htok, hs, h⟩ | ⟨hg, -⟩ | ⟨hnul, h⟩
    · exact ⟨_, h⟩
    · rw [h]
      exact buildLoop_done hb (startsWithCI_drop hc hs) (by have := List.length_pos.mpr htok; omega)
    · simp [hb] at hg
    · rw [h]
      have hlt : c < msg.length := Nat.lt_of_le_of_ne hc fun h => by
        subst h
        rw [peek_length] at hp
        cases hp
        exact hnul rfl
      exact buildLoop_done hb (plainLength_le hlt) (by have := one_le_plainLength msg c; omega)

/-- Without `getbody`, `build_notify_message` reads no byte past the terminator. -/
theorem buildNotifyMessage_done (hb : i.getbody = false) (msg : Option (List Char)) :
    ∃ out, buildNotifyMessage i m msg = .done out := by
  cases msg with
  | none => exact ⟨_, rfl⟩
  | some msg => exact buildLoop_done hb (Nat.zero_le _) (by omega)

/-- `build_notify_message` reads past its template only through the `$text` branch, so only
with `getbody` registered: without it every scan stops at the terminating NUL. An overrun
the scan reports is always a read past that NUL, never a scan the model's fuel cut short. -/
theorem buildNotifyMessage_overrun (i : Interp) (m : Message) (msg : Option (List Char)) :
    (∀ c out, buildNotifyMessage i m msg = .overrun c out →
      i.getbody = true ∧ ∃ t, msg = some t ∧ t.length < c) ∧
    (i.getbody = false → ∃ out, buildNotifyMessage i m msg = .done out) := by
  refine ⟨fun c out h => ⟨?_, ?_⟩, fun hb => buildNotifyMessage_done hb msg⟩
  · cases hb : i.getbody
    · obtain ⟨out', h'⟩ := buildNotifyMessage_done hb msg
      rw [h'] at h
      cases h
    · rfl
  · cases msg with
    | none => cases h
    | some t => exact ⟨t, rfl, buildLoop_overrun_past (by omega) h⟩

/-- A `$text[` whose `]` is the template's last byte: the scan skips the `]` and the
terminator after it, and its next read is one past the terminator, at offset 9. -/
theorem text_bracket_last_overruns (i : Interp) (m : Message) :
    buildNotifyMessage { i with getbody := true } m (some "$text[5]".toList) =
      .overrun 9 (textPart m 5) := by
  rfl

end CyrusSieve
