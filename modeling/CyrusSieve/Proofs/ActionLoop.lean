import CyrusSieve.Spec.Observe
import CyrusSieve.Spec.Trace

/-!
# The action loop of `do_action_list`

One pass of the loop dispatches one action. Read off the code, a pass that does not
return `SIEVE_INTERNAL_ERROR` leaves `ret` at `SIEVE_OK` exactly when the action
succeeds in the sense of `Act.succeeds`, provided it found `ret` at `SIEVE_OK`: that
proviso is what the `discard` without a callback and `ACTION_NONE` need, since both
leave `ret` as it was, and the loop only runs a pass after a pass that succeeded.

The loop then either returns early, which only a missing callback causes, or falls
through to `do_sieve_error` with `ret` at `SIEVE_OK` exactly when every action
succeeded and with the implicit keep still on exactly when, besides, no action cancelled
it. Every call the loop makes is an action callback: with a callback for every action,
exactly the callbacks of the spec's walk of the list (`actionLoop_walk`). And every pass
writes its trace line exactly when it leaves `ret` at `SIEVE_OK` (`actionLoop_trace`).
-/

namespace CyrusSieve

variable {env : Env} {i : Nat} {l l' : Loop}

/-- The calls a loop pass appended are action callbacks. -/
def ActionCalls (st st' : St) : Prop := ∃ cs, st'.calls = st.calls ++ cs ∧ ∀ c ∈ cs, c.isAction

theorem ActionCalls.refl (st : St) : ActionCalls st st := ⟨[], by simp, by simp⟩

theorem ActionCalls.trans {st₁ st₂ st₃ : St} (h₁ : ActionCalls st₁ st₂) (h₂ : ActionCalls st₂ st₃) :
    ActionCalls st₁ st₃ := by
  obtain ⟨cs₁, e₁, a₁⟩ := h₁
  obtain ⟨cs₂, e₂, a₂⟩ := h₂
  exact ⟨cs₁ ++ cs₂, by rw [e₂, e₁, List.append_assoc], fun c hc => by
    rcases List.mem_append.mp hc with hc | hc
    · exact a₁ c hc
    · exact a₂ c hc⟩

theorem ActionCalls.of_eq {st st' : St} (h : st'.calls = st.calls) : ActionCalls st st' :=
  ⟨[], by simp [h], by simp⟩

theorem ActionCalls.all_of_nil {st st' : St} (h : ActionCalls st st') (h₀ : st.calls = []) :
    ∀ c ∈ st'.calls, c.isAction := by
  obtain ⟨cs, hcs, hall⟩ := h
  simpa [hcs, h₀] using hall

/-! ## One pass -/

theorem runCallback_eq_none {reg : Bool} {call : Call} {item : Option String}
    {line : List Char} : runCallback env i reg call item line l = none ↔ reg = false := by
  cases reg <;> simp [runCallback]

theorem runCallback_spec {reg : Bool} {call : Call} {item : Option String} {line : List Char}
    (h : runCallback env i reg call item line l = some l') :
    reg = true ∧ l'.ret = (env.host.action i).code ∧ l'.implicitKeep = l.implicitKeep ∧
      l'.st.calls = l.st.calls ++ [call] ∧
      l'.st.actionsString = appendAll l.st.actionsString (if l'.ret = sieveOk then [line] else []) := by
  cases reg
  · simp [runCallback] at h
  · simp only [runCallback, if_true, Option.some.injEq] at h
    subst h
    by_cases hc : (env.host.action i).code = sieveOk <;> simp [hc]

theorem runDiscard_spec (hl : l.ret = sieveOk) :
    ((runDiscard env i l).ret = sieveOk ↔ (!env.interp.discard ||
      (env.host.action i).code = sieveOk) = true) ∧
    (runDiscard env i l).implicitKeep = l.implicitKeep ∧
    (runDiscard env i l).st.calls = l.st.calls ++ (if env.interp.discard then [.discard] else []) ∧
    (runDiscard env i l).st.actionsString = appendAll l.st.actionsString
      (if (runDiscard env i l).ret = sieveOk then ["Discarded\n".toList] else []) := by
  unfold runDiscard
  by_cases hd : env.interp.discard = true <;> simp only [hd, if_true, Bool.false_eq_true, if_false] <;>
    split <;> simp [*]

theorem runVacation_spec (h : runVacation env i l = some l') :
    env.interp.vacation = true ∧
    (l'.ret = sieveOk ↔ ((env.host.action i).code = sieveDone ∨
      (env.host.action i).code = sieveOk ∧ (env.host.sendResponse i).code = sieveOk)) ∧
    l'.implicitKeep = l.implicitKeep ∧
    l'.st.calls = l.st.calls ++
      .autorespond :: (if (env.host.action i).code = sieveOk then [.sendResponse] else []) ∧
    l'.st.actionsString = appendAll l.st.actionsString
      (if l'.ret = sieveOk then Act.vacation.traceLines env.host i else []) := by
  unfold runVacation at h
  split at h
  · next hv =>
    dsimp only at h
    split at h
    · next hok =>
      cases h
      by_cases h₂ : (env.host.sendResponse i).code = sieveOk <;> simp [hv, hok, h₂, Act.traceLines]
    · next hok =>
      split at h <;> cases h <;> simp [hv, hok, Act.traceLines, *]
  · cases h

theorem runVacation_eq_none : runVacation env i l = none ↔ env.interp.vacation = false := by
  unfold runVacation
  split
  · next hv =>
    simp only [hv, Bool.true_eq_false, iff_false]
    split
    · simp
    · split <;> simp
  · simp_all

theorem dispatch_eq_none {a : Act} : dispatch env i a l = none ↔ env.interp.handles a = false := by
  cases a <;> simp [dispatch, Interp.handles, runCallback_eq_none, runVacation_eq_none]

/-- One pass, read off the code: what it does to `ret` and to `implicit_keep`, the
callbacks it makes, and the line it writes. -/
theorem dispatch_spec {a : Act} (h : dispatch env i a l = some l') (hl : l.ret = sieveOk) :
    (l'.ret = sieveOk ↔ a.succeeds env.interp env.host i = true) ∧
    l'.implicitKeep = l.implicitKeep ∧
    l'.st.calls = l.st.calls ++ a.callbacks env.interp env.host i ∧
    l'.st.actionsString = appendAll l.st.actionsString
      (if l'.ret = sieveOk then a.traceLines env.host i else []) := by
  cases a <;> simp only [dispatch, Option.some.injEq] at h
  case discard => subst h; exact runDiscard_spec hl
  case vacation =>
    obtain ⟨hv, hr, hk, hc, ht⟩ := runVacation_spec h
    exact ⟨by simp [Act.succeeds, hv, hr], hk, hc, ht⟩
  case none => subst h; simp [hl, Act.succeeds, Act.callbacks, Act.traceLines]
  all_goals first
    | (subst h; simp [Act.succeeds, Act.callbacks, Act.traceLines])
    | (obtain ⟨hr, hret, hk, hc, ht⟩ := runCallback_spec h
       exact ⟨by simp [Act.succeeds, hr, hret], hk, hc, ht⟩)

theorem actionStep_spec {a : Action} (h : actionStep env i a l = some l') (hl : l.ret = sieveOk) :
    (l'.ret = sieveOk ↔ a.act.succeeds env.interp env.host i = true) ∧
    l'.implicitKeep = (l.implicitKeep && !a.cancel_keep) ∧
    l'.st.calls = l.st.calls ++ a.act.callbacks env.interp env.host i ∧
    l'.st.actionsString = appendAll l.st.actionsString
      (if l'.ret = sieveOk then a.act.traceLines env.host i else []) :=
  dispatch_spec h hl

theorem actionStep_eq_none {a : Action} :
    actionStep env i a l = none ↔ env.interp.handles a.act = false :=
  dispatch_eq_none

theorem handles_of_actionStep {a : Action} (h : actionStep env i a l = some l') :
    env.interp.handles a.act = true := by
  cases hh : env.interp.handles a.act
  · rw [actionStep_eq_none.mpr hh] at h; cases h
  · rfl

theorem succeeds_of_handles {a : Act} (h : env.interp.handles a = false) :
    a.succeeds env.interp env.host i = false := by
  cases a <;> simp_all [Interp.handles, Act.succeeds]

theorem Act.callbacks_isAction (a : Act) : ∀ c ∈ a.callbacks env.interp env.host i, c.isAction := by
  refine List.all_eq_true.mp ?_
  cases a <;> simp only [Act.callbacks] <;> (try split) <;> rfl

/-! ## The loop -/

/-- The state the loop leaves `do_action_list` in. -/
def LoopExit.st : LoopExit → St
  | .internalError st => st
  | .fallthrough l => l.st

/-- The action loop, from any pass that found `ret` at `SIEVE_OK`: it calls only action
callbacks; it returns early only for an action whose callback is missing; and it falls
through with `ret` at `SIEVE_OK` exactly when every action succeeded, and with the implicit
keep on exactly when, besides, it was on and no action cancelled it. -/
theorem actionLoop_spec : ∀ {i : Nat} {as : List Action} {l : Loop}, l.ret = sieveOk →
    ActionCalls l.st (actionLoop env i as l).st ∧
    (∀ st, actionLoop env i as l = .internalError st → ∃ a ∈ as, env.interp.handles a.act = false) ∧
    (∀ l', actionLoop env i as l = .fallthrough l' →
      (l'.ret = sieveOk ↔ allSucceed env.interp env.host i as = true) ∧
      (l'.implicitKeep = true ↔ l.implicitKeep = true ∧
        allSucceed env.interp env.host i as = true ∧ ∀ a ∈ as, a.cancel_keep = false))
  | _, [], l, hl => ⟨ActionCalls.refl _, by simp [actionLoop], by
      intro l' h; cases h; simp [allSucceed, hl]⟩
  | i, a :: as, l, hl => by
    rw [actionLoop]
    cases hs : actionStep env i a l with
    | none =>
      exact ⟨ActionCalls.refl _, fun _ _ => ⟨a, List.mem_cons_self _ _, actionStep_eq_none.mp hs⟩,
        by simp⟩
    | some l₁ =>
      obtain ⟨hret, hik, hc, -⟩ := actionStep_spec hs hl
      have hcalls : ActionCalls l.st l₁.st := ⟨_, hc, Act.callbacks_isAction a.act⟩
      dsimp only
      by_cases hr : l₁.ret = sieveOk
      · have hsa : a.act.succeeds env.interp env.host i = true := hret.mp hr
        obtain ⟨ih₁, ih₂, ih₃⟩ := @actionLoop_spec (i + 1) as l₁ hr
        rw [if_neg (not_not.mpr hr)]
        refine ⟨hcalls.trans ih₁, fun st h => ?_, fun l' h => ?_⟩
        · obtain ⟨b, hb, hbh⟩ := ih₂ st h
          exact ⟨b, List.mem_cons_of_mem _ hb, hbh⟩
        · obtain ⟨h₁, h₂⟩ := ih₃ l' h
          simp only [allSucceed, hsa, Bool.true_and, h₁, h₂, hik, List.mem_cons,
            forall_eq_or_imp, Bool.and_eq_true, Bool.not_eq_true', true_and]
          exact ⟨fun ⟨⟨hk, hc⟩, ha, hs⟩ => ⟨hk, ha, hc, hs⟩, fun ⟨hk, ha, hc, hs⟩ => ⟨⟨hk, hc⟩, ha, hs⟩⟩
      · have hsa : a.act.succeeds env.interp env.host i = false := by
          simpa [hr] using hret.not
        rw [if_pos hr]
        refine ⟨hcalls, by simp, fun l' h => ?_⟩
        cases h
        simp [allSucceed, hsa, hr]

theorem allSucceed_eq_false_of_internalError {i : Nat} {as : List Action} {l : Loop} {st : St}
    (h : actionLoop env i as l = .internalError st) :
    allSucceed env.interp env.host i as = false := by
  induction as generalizing i l with
  | nil => cases h
  | cons a as ih =>
    rw [actionLoop] at h
    cases hs : actionStep env i a l with
    | none =>
      simp [allSucceed, succeeds_of_handles (actionStep_eq_none.mp hs)]
    | some l₁ =>
      rw [hs] at h
      dsimp only at h
      split at h
      · cases h
      · simp [allSucceed, ih h]

/-! ## The walk and the trace of the whole loop -/

/-- With a callback for every action, the loop walks the list as the spec says: the
callbacks of each action in order, up to and including the first that does not succeed,
and then falls through to `do_sieve_error`. -/
theorem actionLoop_walk : ∀ {i : Nat} {as : List Action} {l : Loop},
    (∀ a ∈ as, env.interp.handles a.act = true) → l.ret = sieveOk →
    ∃ l', actionLoop env i as l = .fallthrough l' ∧
      l'.st.calls = l.st.calls ++ walkCalls env.interp env.host i as
  | _, [], l, _, _ => ⟨l, rfl, by simp [walkCalls]⟩
  | i, a :: as, l, hh, hl => by
    obtain ⟨l₁, hs⟩ : ∃ l₁, actionStep env i a l = some l₁ :=
      Option.ne_none_iff_exists'.mp fun h => by simp [actionStep_eq_none.mp h] at hh
    obtain ⟨hret, -, hc, -⟩ := actionStep_spec hs hl
    rw [actionLoop, hs]
    dsimp only
    by_cases hr : l₁.ret = sieveOk
    · obtain ⟨l', h, hc'⟩ := @actionLoop_walk i.succ as l₁ (fun b hb => hh b (List.mem_cons_of_mem _ hb)) hr
      rw [if_neg (not_not.mpr hr)]
      exact ⟨l', h, by simp [hc', hc, walkCalls, hret.mp hr]⟩
    · rw [if_pos hr]
      have hsa : a.act.succeeds env.interp env.host i = false := by simpa [hr] using hret.not
      exact ⟨_, rfl, by simp [hc, walkCalls, hsa]⟩

/-- The loop returns `SIEVE_INTERNAL_ERROR` exactly when its walk reaches an action whose
callback is missing. -/
theorem actionLoop_internalError_iff : ∀ {i : Nat} {as : List Action} {l : Loop}, l.ret = sieveOk →
    ((∃ st, actionLoop env i as l = .internalError st) ↔
      reachesUnhandled env.interp env.host i as = true)
  | _, [], _, _ => by simp [actionLoop, reachesUnhandled]
  | i, a :: as, l, hl => by
    rw [actionLoop]
    cases hs : actionStep env i a l with
    | none => simp [reachesUnhandled, actionStep_eq_none.mp hs]
    | some l₁ =>
      have hh := handles_of_actionStep hs
      obtain ⟨hret, -⟩ := actionStep_spec hs hl
      dsimp only
      by_cases hr : l₁.ret = sieveOk
      · rw [if_neg (not_not.mpr hr), actionLoop_internalError_iff hr]
        simp [reachesUnhandled, hh, hret.mp hr]
      · have hsa : a.act.succeeds env.interp env.host i = false := by simpa [hr] using hret.not
        rw [if_pos hr]
        simp [reachesUnhandled, hh, hsa]

/-- The loop leaves the trace it was given with its lines appended. -/
theorem actionLoop_trace : ∀ {i : Nat} {as : List Action} {l : Loop}, l.ret = sieveOk →
    (actionLoop env i as l).st.actionsString = appendAll l.st.actionsString (loopLines env i as l)
  | _, [], _, _ => rfl
  | i, a :: as, l, hl => by
    rw [actionLoop, loopLines]
    cases hs : actionStep env i a l with
    | none => rfl
    | some l' =>
      obtain ⟨-, -, -, ht⟩ := actionStep_spec hs hl
      dsimp only
      by_cases hr : l'.ret = sieveOk
      · rw [if_neg (not_not.mpr hr), if_neg (not_not.mpr hr), actionLoop_trace hr, ht, if_pos hr,
          appendAll_append]
      · rw [if_pos hr, if_pos hr]
        simpa [LoopExit.st, hr] using ht

end CyrusSieve
