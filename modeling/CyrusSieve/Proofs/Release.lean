import CyrusSieve.Proofs.Execute
import CyrusSieve.Model.Release

/-!
# Every list a run allocates is freed once, unless the action loop returns early

`runMem_frees` is the law: a run allocates each of its lists at most once, frees them only
after all its allocations, and frees exactly the ones it allocated, each once, except on one
path. When `do_action_list` meets an action whose callback is missing, it returns
`SIEVE_INTERNAL_ERROR` straight to `sieve_execute_bytecode`, which frees only the
duplicate-tracking list: the action list and the notify list are never freed.

The notify list is the delicate one. It is freed by the `do_sieve_error` activation that
walks it, and `do_sieve_error` can re-enter twice. What keeps the second activation from
walking and freeing it again is the `notify_list = NULL` before the re-entry, and an
activation that did not walk it hands on a list that its successors cannot walk either
(`errorStep_again_walksNotify`). So one call frees it exactly when its first activation walks
it, and frees the action list once, at the end (`doSieveErrorFrees_eq`).
-/

namespace CyrusSieve

variable {env : Env}

/-! ## `do_sieve_error` -/

theorem afterNotify_again_notifyList {a a' : ErrorArgs} (h : afterNotify env a = .again a') :
    a'.notifyList = a.notifyList := by
  by_cases hk : a.implicitKeep <;> by_cases hc : env.host.keep.code = sieveOk <;>
    simp only [afterNotify, hk, hc, if_true, if_false, reduceCtorEq, ErrorExit.again.injEq] at h
  subst h
  rfl

/-- After a re-entry the notify list is never walked again: the activation that walked it
set it to `NULL`, and one that did not hands on a list it could not walk. -/
theorem errorStep_again_walksNotify {a a' : ErrorArgs} (h : errorStep env a = .again a') :
    a'.walksNotify env = false := by
  unfold errorStep at h
  split at h
  · dsimp only at h
    split at h
    · cases h
      simp [ErrorArgs.walksNotify]
    · simp [ErrorArgs.walksNotify, afterNotify_again_notifyList h]
  · next hn =>
    simp only [ErrorArgs.walksNotify, afterNotify_again_notifyList h]
    rcases hl : a.notifyList with _ | N
    · simp
    · simpa using hn N hl

theorem errorFrees_eq (held : Bool) : ∀ {n : Nat} {a : ErrorArgs}, a.measure env < n →
    errorFrees env held n a =
      (if a.walksNotify env then [.notify] else []) ++ (if held then [.actions] else [])
  | 0, _, h => absurd h (Nat.not_lt_zero _)
  | n + 1, a, h => by
    rw [errorFrees]
    cases hs : errorStep env a with
    | done => rfl
    | again a' =>
      have := errorStep_measure hs
      dsimp only
      rw [errorFrees_eq held (by omega), errorStep_again_walksNotify hs]
      simp

/-- `do_sieve_error` frees the notify list exactly when its first activation walks it, and the
action list, when it was handed one, once. -/
theorem doSieveErrorFrees_eq (held : Bool) (a : ErrorArgs) :
    doSieveErrorFrees env held a =
      (if a.walksNotify env then [.notify] else []) ++ (if held then [.actions] else []) :=
  errorFrees_eq held (Nat.lt_succ_self _)

/-- `do_action_list` frees nothing when its loop returns early, and otherwise the notify
list, if it walks one, and the action list. -/
theorem doActionListFrees_eq (actions : List Action) (nl : Option (List NotifyEntry))
    (errmsg : Option String) (st : St) :
    doActionListFrees env actions nl errmsg st =
      if reachesUnhandled env.interp env.host 0 actions then []
      else (if env.interp.notify && nl.isSome then [.notify] else []) ++ [.actions] := by
  have hi := @actionLoop_internalError_iff env 0 actions
    ⟨.null, sieveOk, true, errmsg, { st with actionsString := "Action(s) taken:\n".toList }⟩ rfl
  unfold doActionListFrees
  split
  · next st' h => rw [if_pos (hi.mp ⟨st', h⟩)]
  · next l h =>
    have hu : reachesUnhandled env.interp env.host 0 actions = false := by
      cases hu : reachesUnhandled env.interp env.host 0 actions
      · rfl
      · obtain ⟨_, h'⟩ := hi.mpr hu
        rw [h] at h'
        cases h'
    rw [hu, doSieveErrorFrees_eq]
    rfl

theorem doSieveErrorFrees_none {a : ErrorArgs} (h : a.notifyList = none) :
    doSieveErrorFrees env false a = [] := by
  simp [doSieveErrorFrees_eq, ErrorArgs.walksNotify, h]

/-! ## The run -/

/-- Every list a run allocates is allocated once and freed once, after all the allocations,
except that a run whose action loop returns `SIEVE_INTERNAL_ERROR` never frees its action
list or its notify list. -/
theorem runMem_frees (interp : Interp) (msg : Message) (host : Host) (ev : Eval) :
    ∃ al fl : List RunList, runMem interp msg host ev = al.map .acquire ++ fl.map .release ∧
      al.Nodup ∧
      fl.Perm (al.filter fun l => l = .duptrack ∨ ev.returnsEarly interp host = false) := by
  unfold runMem
  dsimp only
  by_cases h₁ : interp.duplicate ∧ ¬host.allocDuptrack
  · rw [if_pos h₁, doSieveErrorFrees_none rfl]
    exact ⟨[], [], rfl, List.nodup_nil, .nil⟩
  rw [if_neg h₁]
  by_cases h₂ : interp.notify ∧ ¬host.allocNotify
  · rw [if_pos h₂, doSieveErrorFrees_none rfl]
    refine ⟨if interp.duplicate then [.duptrack] else [], if interp.duplicate then [.duptrack] else [],
      by simp, ?_, ?_⟩ <;> generalize ev.returnsEarly interp host = e <;>
      cases e <;> cases interp.duplicate <;> decide
  rw [if_neg h₂]
  by_cases h₃ : ¬host.allocActions
  · have hret : ev.returnsEarly interp host = false := by
      simp [Eval.returnsEarly, Eval.returned, Host.allocates, h₃]
    rw [if_pos h₃, doSieveErrorFrees_eq, hret]
    refine ⟨(if interp.duplicate then [.duptrack] else []) ++ if interp.notify then [.notify] else [],
      (if interp.notify then [.notify] else []) ++ if interp.duplicate then [.duptrack] else [],
      by cases hn : interp.notify <;> simp [ErrorArgs.walksNotify, hn], ?_, ?_⟩ <;>
      cases interp.duplicate <;> cases interp.notify <;> decide
  rw [if_neg h₃]
  have halloc := allocates_of_guards h₁ h₂ h₃
  have hE : (if ev.ret.toInt < 0 then
        doSieveErrorFrees ⟨interp, msg, host, ev.imapflags⟩ true
          ⟨sieveRunError, if interp.notify then some ev.notifyList else none, .null, false, ev.errmsg,
            ⟨[], [], interp.lastitem⟩⟩
      else doActionListFrees ⟨interp, msg, host, ev.imapflags⟩ ev.actions
        (if interp.notify then some ev.notifyList else none) ev.errmsg ⟨[], [], interp.lastitem⟩) =
      if ev.returnsEarly interp host then [] else (if interp.notify then [.notify] else []) ++ [.actions] := by
    by_cases h₄ : ev.ret.toInt < 0
    · have : ev.returnsEarly interp host = false := by
        simp [Eval.returnsEarly, Eval.returned, not_le.mpr h₄]
      rw [if_pos h₄, doSieveErrorFrees_eq, this]
      cases hn : interp.notify <;> simp [ErrorArgs.walksNotify, hn]
    · have : ev.returnsEarly interp host = reachesUnhandled interp host 0 ev.actions := by
        simp [Eval.returnsEarly, Eval.returned, halloc, not_lt.mp h₄]
      rw [if_neg h₄, doActionListFrees_eq, this]
      cases hn : interp.notify <;> simp [hn]
  rw [hE]
  refine ⟨(if interp.duplicate then [.duptrack] else []) ++ (if interp.notify then [.notify] else []) ++
      [.actions], (if ev.returnsEarly interp host then [] else
        (if interp.notify then [.notify] else []) ++ [.actions]) ++
      if interp.duplicate then [.duptrack] else [], by simp, ?_, ?_⟩ <;>
    generalize ev.returnsEarly interp host = e <;>
    cases e <;> cases interp.duplicate <;> cases interp.notify <;> decide

/-- A `reject` with no callback: the run allocates its three lists and frees only the
duplicate-tracking list. -/
example : runMem { everyCallback with reject := false } blankMessage hostOk
    ⟨0, none, [], [⟨.reject "spam", true⟩], [], []⟩ =
      [.acquire .duptrack, .acquire .notify, .acquire .actions, .release .duptrack] := by
  decide

end CyrusSieve
