import CyrusSieve.Proofs.ErrorPath

/-!
# `sieve_execute_bytecode`, case by case

A run ends in one of two ways. Either `do_action_list` returned `SIEVE_INTERNAL_ERROR`
from inside its loop, having met an action whose callback is missing, and nothing
after the loop ran; or exactly one `do_sieve_error` call finished the run, entered after
an allocation failure, after a failed evaluation, or at the end of the action loop.
`sieveExecuteBytecode_cases` says which, and with which arguments; the dispatcher's laws
are read off it together with the facts of `ErrorPath.lean`.

On the `do_sieve_error` path the arguments carry the whole story of what came before:
`ret` is `SIEVE_OK` exactly when evaluation returned and every action succeeded, the
implicit keep is on exactly when besides no action cancelled it, and the calls so far are
action callbacks. Duplicate tracking, last, adds its `track` calls only to a run that
returned `SIEVE_OK`.
-/

namespace CyrusSieve

/-! ## Duplicate tracking -/

theorem trackDuplicates_fst (interp : Interp) (d : List DuptrackEntry) (r : BitVec 32 × St) :
    (trackDuplicates interp d r).1 = r.1 := by
  unfold trackDuplicates
  split <;> rfl

theorem trackDuplicates_calls (interp : Interp) (d : List DuptrackEntry) (r : BitVec 32 × St) :
    (trackDuplicates interp d r).2.calls =
      r.2.calls ++ if interp.duplicate ∧ r.1 = sieveOk then trackCalls d else [] := by
  unfold trackDuplicates
  split <;> simp_all

theorem trackCalls_isTrack (d : List DuptrackEntry) : ∀ c ∈ trackCalls d, c.isTrack := by
  simp only [trackCalls, List.mem_filterMap, Option.map_eq_some']
  rintro _ ⟨_, _, _, _, rfl⟩
  rfl

theorem trackDuplicates_implicitKeeps (interp : Interp) (d : List DuptrackEntry)
    (r : BitVec 32 × St) : (trackDuplicates interp d r).2.calls.countP Call.isImplicitKeep =
      r.2.calls.countP Call.isImplicitKeep := by
  have h : (trackCalls d).countP Call.isImplicitKeep = 0 := List.countP_eq_zero.mpr fun c hc => by
    have := trackCalls_isTrack d c hc
    cases c <;> first | exact Bool.false_ne_true | cases this
  rw [trackDuplicates_calls, List.countP_append]
  split <;> simp [h]

/-! ## `do_action_list` -/

/-- `do_action_list` either returns early, with an action whose callback is missing, or
ends in one `do_sieve_error` whose arguments summarise the loop. -/
theorem doActionList_cases (env : Env) (actions : List Action)
    (nl : Option (List NotifyEntry)) (errmsg : Option String) (st : St) :
    (∃ st', doActionList env actions nl errmsg st = (sieveInternalError, st') ∧
      allSucceed env.interp env.host 0 actions = false ∧
      (∃ a ∈ actions, env.interp.handles a.act = false) ∧ ActionCalls st st') ∨
    (∃ a : ErrorArgs, doActionList env actions nl errmsg st = doSieveError env a ∧
      a.notifyList = nl ∧ (a.ret = sieveOk ↔ allSucceed env.interp env.host 0 actions = true) ∧
      (a.implicitKeep = true ↔ allSucceed env.interp env.host 0 actions = true ∧
        ∀ a ∈ actions, a.cancel_keep = false) ∧ ActionCalls st a.st) := by
  obtain ⟨hc, hi, hf⟩ := @actionLoop_spec env 0 actions
    ⟨.null, sieveOk, true, errmsg, { st with actionsString := "Action(s) taken:\n".toList }⟩ rfl
  have h₀ : ActionCalls st { st with actionsString := "Action(s) taken:\n".toList } :=
    ActionCalls.of_eq rfl
  have hc' := h₀.trans hc
  unfold doActionList
  split
  · next st' h =>
    rw [h] at hi hc'
    exact .inl ⟨st', rfl, allSucceed_eq_false_of_internalError h, hi st' rfl, hc'⟩
  · next l h =>
    rw [h] at hc'
    obtain ⟨hr, hk⟩ := hf l h
    exact .inr ⟨_, rfl, rfl, hr, by simpa using hk, hc'⟩

/-! ## The run -/

theorem trackDuplicates_of_ne {interp : Interp} {d : List DuptrackEntry} {r : BitVec 32 × St}
    (h : r.1 ≠ sieveOk) : trackDuplicates interp d r = r := by
  simp [trackDuplicates, h]

theorem doSieveError_ne {env : Env} {a : ErrorArgs} (h : a.ret ≠ sieveOk) :
    (doSieveError env a).1 ≠ sieveOk :=
  fun h' => h ((doSieveError_ok a).mp h').1

/-- The `do_sieve_error` call that ends a run, and what the run brought to it. -/
structure Ending (interp : Interp) (msg : Message) (host : Host) (ev : Eval) (env : Env)
    (a : ErrorArgs) : Prop where
  interp_eq : env.interp = interp
  msg_eq : env.msg = msg
  host_eq : env.host = host
  calls : ∀ c ∈ a.st.calls, c.isAction
  ret : a.ret = sieveOk ↔ ev.returned interp host = true ∧ allSucceed interp host 0 ev.actions = true
  keep : a.implicitKeep = true ↔ ev.returned interp host = true ∧
    allSucceed interp host 0 ev.actions = true ∧ ∀ a ∈ ev.actions, a.cancel_keep = false
  pending : pendingCalls env a = if host.allocates interp ∧ interp.notify then
    notifyCalls env a.traceFailure.actionsString ev.notifyList else []
  notify : notifyOk env a.notifyList = (!host.allocates interp || !interp.notify ||
    allSent host 0 ev.notifyList)

theorem ending_nomem {interp : Interp} {msg : Message} {host : Host} {ev : Eval}
    {nl : Option (List NotifyEntry)} (hnl : ∀ N, nl = some N → N = [])
    (halloc : host.allocates interp = false) :
    Ending interp msg host ev ⟨interp, msg, host, []⟩
      ⟨sieveNomem, nl, .null, false, none, ⟨[], [], interp.lastitem⟩⟩ where
  interp_eq := rfl
  msg_eq := rfl
  host_eq := rfl
  calls := by simp
  ret := iff_of_false (by dsimp only; decide) (by simp [Eval.returned, halloc])
  keep := by simp [Eval.returned, halloc]
  pending := by
    rcases nl with _ | N
    · simp [pendingCalls, halloc]
    · obtain rfl := hnl N rfl
      cases hn : interp.notify <;> simp [pendingCalls, notifyCalls, halloc, hn]
  notify := by
    rcases nl with _ | N
    · simp [notifyOk, halloc]
    · obtain rfl := hnl N rfl
      simp [notifyOk, halloc, allSent]

/-- An allocation failure ends the run in one `do_sieve_error` with `SIEVE_NOMEM`. -/
theorem nomem_ending {interp : Interp} {msg : Message} {host : Host} {ev : Eval}
    {nl : Option (List NotifyEntry)} (hnl : ∀ N, nl = some N → N = [])
    (halloc : host.allocates interp = false) :
    ∃ (env : Env) (a : ErrorArgs), doSieveError ⟨interp, msg, host, []⟩
        ⟨sieveNomem, nl, .null, false, none, ⟨[], [], interp.lastitem⟩⟩ =
      trackDuplicates interp ev.duptrackList (doSieveError env a) ∧
      Ending interp msg host ev env a := by
  exact ⟨_, _, (trackDuplicates_of_ne (doSieveError_ne sieveNomem_ne_ok)).symm, ending_nomem hnl halloc⟩

/-- After the three lists were allocated, the arguments of the last `do_sieve_error` only
have to get `ret`, the implicit keep and the calls so far right. -/
theorem ending_alloc {interp : Interp} {msg : Message} {host : Host} {ev : Eval} {a : ErrorArgs}
    (halloc : host.allocates interp = true)
    (hnl : a.notifyList = if interp.notify then some ev.notifyList else none)
    (hc : ∀ c ∈ a.st.calls, c.isAction)
    (hr : a.ret = sieveOk ↔
      ev.returned interp host = true ∧ allSucceed interp host 0 ev.actions = true)
    (hk : a.implicitKeep = true ↔ ev.returned interp host = true ∧
      allSucceed interp host 0 ev.actions = true ∧ ∀ a ∈ ev.actions, a.cancel_keep = false) :
    Ending interp msg host ev ⟨interp, msg, host, ev.imapflags⟩ a where
  interp_eq := rfl
  msg_eq := rfl
  host_eq := rfl
  calls := hc
  ret := hr
  keep := hk
  pending := by cases hn : interp.notify <;> simp [pendingCalls, hnl, hn, halloc]
  notify := by cases hn : interp.notify <;> simp [notifyOk, hnl, hn, halloc]

/-- How a run ends: early with `SIEVE_INTERNAL_ERROR`, or in one `do_sieve_error`. -/
theorem sieveExecuteBytecode_cases (interp : Interp) (msg : Message) (host : Host) (ev : Eval) :
    (∃ st, sieveExecuteBytecode interp msg host ev = (sieveInternalError, st) ∧
      ev.returned interp host = true ∧ allSucceed interp host 0 ev.actions = false ∧
      (∃ a ∈ ev.actions, interp.handles a.act = false) ∧ ∀ c ∈ st.calls, c.isAction) ∨
    (∃ (env : Env) (a : ErrorArgs), sieveExecuteBytecode interp msg host ev =
        trackDuplicates interp ev.duptrackList (doSieveError env a) ∧
      Ending interp msg host ev env a) := by
  unfold sieveExecuteBytecode
  dsimp only
  by_cases h₁ : interp.duplicate ∧ ¬host.allocDuptrack
  · rw [if_pos h₁]
    exact .inr (nomem_ending (by simp) (by simp [Host.allocates, h₁.1, h₁.2]))
  rw [if_neg h₁]
  by_cases h₂ : interp.notify ∧ ¬host.allocNotify
  · rw [if_pos h₂]
    exact .inr (nomem_ending (by simp) (by simp [Host.allocates, h₂.1, h₂.2]))
  rw [if_neg h₂]
  by_cases h₃ : ¬host.allocActions
  · rw [if_pos h₃, trackDuplicates_of_ne (doSieveError_ne sieveNomem_ne_ok)]
    exact .inr (nomem_ending (by split <;> simp) (by simp [Host.allocates, h₃]))
  · rw [if_neg h₃]
    have halloc : host.allocates interp = true := by
      simp only [not_and, Bool.not_eq_true] at h₁ h₂ h₃
      cases hd : interp.duplicate <;> cases hn : interp.notify <;> simp_all [Host.allocates]
    unfold evalAndDispatch
    dsimp only
    split
    · next hneg =>
      have hret : ev.returned interp host = false := by simp [Eval.returned, hneg]
      exact .inr ⟨_, _, rfl, ending_alloc halloc rfl (by simp)
        (iff_of_false (by dsimp only; decide) (by simp [hret])) (by simp [hret])⟩
    · next hpos =>
      have hret : ev.returned interp host = true := by simp [Eval.returned, halloc]; omega
      rcases doActionList_cases ⟨interp, msg, host, ev.imapflags⟩ ev.actions
          (if interp.notify then some ev.notifyList else none) ev.errmsg ⟨[], [], interp.lastitem⟩ with
        ⟨st', h, hs, hh, hc⟩ | ⟨a, h, hnl, hr, hk, hc⟩
      · rw [h, @trackDuplicates_of_ne interp ev.duptrackList (sieveInternalError, st') sieveInternalError_ne_ok]
        exact .inl ⟨st', rfl, hret, hs, hh, hc.all_of_nil rfl⟩
      · rw [h]
        exact .inr ⟨_, a, rfl, ending_alloc halloc hnl (hc.all_of_nil rfl) (by simp [hr, hret])
          (by simp [hk, hret])⟩

/-! ## The dispatcher's laws -/

theorem countP_implicitKeep_of_actions {cs : List Call} (h : ∀ c ∈ cs, c.isAction) :
    cs.countP Call.isImplicitKeep = 0 := List.countP_eq_zero.mpr fun c hc => by
  have := h c hc
  cases c <;> first | exact Bool.false_ne_true | cases this

/-- The notify loop's calls match, one for one and in order, the active entries whose
context can be built. -/
theorem notifyCalls_forall₂ (env : Env) (s : List Char) (N : List NotifyEntry) :
    List.Forall₂ (fun n c => ∃ nc, notifyContext env.interp env.msg n s = some nc ∧ c = .notify nc)
      (N.filter fun n => n.isactive && n.complete) (notifyCalls env s N) := by
  induction N with
  | nil => exact .nil
  | cons n N ih =>
    unfold notifyCalls at ih ⊢
    cases ha : n.isactive
    · simpa [List.filter_cons, ha] using ih
    · cases hc : notifyContext env.interp env.msg n s with
      | none =>
        have : n.complete = false := notifyContext_eq_none.mp hc
        simpa [List.filter_cons, ha, hc, this] using ih
      | some nc =>
        have : n.complete = true := by simpa [hc] using (@notifyContext_eq_none env n s).not
        simpa [List.filter_cons, ha, hc, this] using ih

theorem allocates_of_returned {ev : Eval} {interp : Interp} {host : Host}
    (h : ev.returned interp host = true) : host.allocates interp = true := by
  simp_all [Eval.returned]

/-- A run that passes the three out-of-memory exits of `sieve_execute_bytecode` has every list
it needs. -/
theorem allocates_of_guards {interp : Interp} {host : Host}
    (h₁ : ¬(interp.duplicate ∧ ¬host.allocDuptrack)) (h₂ : ¬(interp.notify ∧ ¬host.allocNotify))
    (h₃ : ¬¬host.allocActions) : host.allocates interp = true := by
  cases hd : interp.duplicate <;> cases hn : interp.notify <;> simp_all [Host.allocates]

/-- An interpreter with every callback registered and no `lastitem` left. -/
def everyCallback : Interp :=
  ⟨true, true, true, true, true, true, true, true, true, true, true, true, false, none⟩

/-- A message with no headers, no envelope sender, no body and no file name. -/
def blankMessage : Message := ⟨fun _ => none, fun _ => none, none, none, none, id⟩

/-- A host whose allocators and callbacks all succeed. -/
def hostOk : Host :=
  ⟨true, true, true, fun _ => ⟨sieveOk, none⟩, fun _ => ⟨sieveOk, none⟩, fun _ => ⟨sieveOk, none⟩,
    ⟨sieveOk, none⟩, fun _ => sieveOk⟩

/-- The implicit keep is made at most once, and exactly when evaluation returned, every
action succeeded and none cancelled it. -/
theorem sieveExecuteBytecode_implicitKeeps (interp : Interp) (msg : Message) (host : Host)
    (ev : Eval) :
    let n := (sieveExecuteBytecode interp msg host ev).2.calls.countP Call.isImplicitKeep
    n ≤ 1 ∧ (n = 1 ↔ ev.returned interp host = true ∧ allSucceed interp host 0 ev.actions = true ∧
      ∀ a ∈ ev.actions, a.cancel_keep = false) := by
  dsimp only
  rcases sieveExecuteBytecode_cases interp msg host ev with ⟨st, h, -, hs, -, hc⟩ | ⟨env, a, h, e⟩
  · simp [h, countP_implicitKeep_of_actions hc, hs]
  · rw [h, trackDuplicates_implicitKeeps, doSieveError_implicitKeeps,
      countP_implicitKeep_of_actions e.calls, ← e.keep]
    cases a.implicitKeep <;> simp

/-- With a notify callback, and a callback for every action of the list, the notify callback
is passed, once each and in list order, the active entries whose method, options, priority
and message are set: after every action callback, and followed only by `execute_err` calls,
the implicit keep and `track` calls. -/
theorem sieveExecuteBytecode_notifies (interp : Interp) (msg : Message) (host : Host) (ev : Eval)
    (hn : interp.notify = true) (hh : ∀ a ∈ ev.actions, interp.handles a.act = true) :
    ∃ s pre nots post, (sieveExecuteBytecode interp msg host ev).2.calls = pre ++ nots ++ post ∧
      (∀ c ∈ pre, c.isAction) ∧
      List.Forall₂ (fun n c => ∃ nc, notifyContext interp msg n s = some nc ∧ c = .notify nc)
        (if host.allocates interp then ev.notifyList.filter fun n => n.isactive && n.complete
         else []) nots ∧
      ∀ c ∈ post, c.isExecuteErr ∨ c.isImplicitKeep ∨ c.isTrack := by
  rcases sieveExecuteBytecode_cases interp msg host ev with ⟨-, -, -, -, ⟨a, ha, hu⟩, -⟩ |
      ⟨⟨i, m, hst, f⟩, a, h, ⟨rfl, rfl, rfl, hc, -, -, hp, -⟩⟩
  · simp [hh a ha] at hu
  · obtain ⟨post, hpost, hq⟩ := @doSieveError_calls ⟨i, m, hst, f⟩ a
    refine ⟨a.traceFailure.actionsString, a.st.calls, pendingCalls ⟨i, m, hst, f⟩ a,
      post ++ if i.duplicate ∧ (doSieveError ⟨i, m, hst, f⟩ a).1 = sieveOk then
        trackCalls ev.duptrackList else [], ?_, hc, ?_, ?_⟩
    · rw [h, trackDuplicates_calls, hpost, List.append_assoc]
    · rw [hp, hn]
      cases hst.allocates i
      · exact .nil
      · exact notifyCalls_forall₂ ⟨i, m, hst, f⟩ _ _
    · intro c hc'
      rcases List.mem_append.mp hc' with hc' | hc'
      · rcases hq c hc' with h' | h' <;> simp [h']
      · split at hc'
        · simp [trackCalls_isTrack _ c hc']
        · cases hc'

/-- An evaluation that files into a mailbox and leaves one complete notification. -/
def fileAndNotify : Eval :=
  ⟨0, none, [], [⟨.fileinto "INBOX.lists", false⟩],
    [⟨true, some "mailto", some ["owner@example.org"], some "low", some "$from$".toList, none⟩], []⟩

theorem sieveExecuteBytecode_notifies_fileAndNotify :
    everyCallback.notify = true ∧
    (∀ a ∈ fileAndNotify.actions, everyCallback.handles a.act = true) ∧
    ∃ s pre nots post,
      (sieveExecuteBytecode everyCallback blankMessage hostOk fileAndNotify).2.calls =
        pre ++ nots ++ post ∧
      (∀ c ∈ pre, c.isAction) ∧
      List.Forall₂ (fun n c => ∃ nc, notifyContext everyCallback blankMessage n s = some nc ∧
          c = .notify nc)
        (if hostOk.allocates everyCallback then
          fileAndNotify.notifyList.filter fun n => n.isactive && n.complete else []) nots ∧
      ∀ c ∈ post, c.isExecuteErr ∨ c.isImplicitKeep ∨ c.isTrack :=
  ⟨rfl, by decide,
    sieveExecuteBytecode_notifies everyCallback blankMessage hostOk fileAndNotify rfl (by decide)⟩

/-- An active entry without a method is never passed to the notify callback. -/
theorem methodless_notify_unsent :
    let ev : Eval := ⟨0, none, [], [], [⟨true, none, some [], some "low", some [], none⟩], []⟩
    (ev.notifyList.filter (·.isactive)).length = 1 ∧
      (sieveExecuteBytecode everyCallback blankMessage hostOk ev).2.calls.countP Call.isNotify = 0 := by
  decide

/-! ## The walk of `do_action_list` -/

/-- With a callback for every action, `do_action_list` makes the spec's walk of the list:
the callbacks of each action, once each and in list order, up to and including the first
action that does not succeed. After them come only notifications, `execute_err` calls and
the implicit keep. -/
theorem doActionList_walk (env : Env) (actions : List Action) (nl : Option (List NotifyEntry))
    (errmsg : Option String) (st : St) (hh : ∀ a ∈ actions, env.interp.handles a.act = true) :
    ∃ post, (doActionList env actions nl errmsg st).2.calls =
        st.calls ++ walkCalls env.interp env.host 0 actions ++ post ∧
      ∀ c ∈ post, c.isNotify ∨ c.isExecuteErr ∨ c.isImplicitKeep := by
  obtain ⟨l, hl, hc⟩ := @actionLoop_walk env 0 actions
    ⟨.null, sieveOk, true, errmsg, { st with actionsString := "Action(s) taken:\n".toList }⟩ hh rfl
  let a : ErrorArgs := ⟨l.ret, nl, l.lastaction, l.implicitKeep, l.errmsg, l.st⟩
  obtain ⟨post, hpost, hq⟩ := @doSieveError_calls env a
  refine ⟨pendingCalls env a ++ post, ?_, fun c hc' => ?_⟩
  · rw [doActionList, hl]
    simp [hpost, hc, a]
  · rcases List.mem_append.mp hc' with hc' | hc'
    · exact .inl (pendingCalls_isNotify a c hc')
    · exact .inr (hq c hc')

/-- A host whose `autorespond` answers `SIEVE_DONE` for the first action and whose callback
for the second fails. -/
def hostDoneThenFail : Host :=
  { hostOk with action := fun i => if i = 0 then ⟨sieveDone, none⟩
      else if i = 1 then ⟨sieveFail, none⟩ else ⟨sieveOk, none⟩ }

/-- A vacation, a fileinto and a redirect. -/
def vacationFileRedirect : List Action :=
  [⟨.vacation, false⟩, ⟨.fileinto "INBOX.lists", false⟩, ⟨.redirect "owner@example.org", false⟩]

theorem doActionList_walk_doneThenFail :
    (∀ a ∈ vacationFileRedirect, everyCallback.handles a.act = true) ∧
    ∃ post, (doActionList ⟨everyCallback, blankMessage, hostDoneThenFail, []⟩ vacationFileRedirect
        none none ⟨[], [], none⟩).2.calls =
        [] ++ walkCalls everyCallback hostDoneThenFail 0 vacationFileRedirect ++ post ∧
      ∀ c ∈ post, c.isNotify ∨ c.isExecuteErr ∨ c.isImplicitKeep :=
  ⟨by decide, doActionList_walk ⟨everyCallback, blankMessage, hostDoneThenFail, []⟩
    vacationFileRedirect none none ⟨[], [], none⟩ (by decide)⟩

example : walkCalls everyCallback hostDoneThenFail 0 vacationFileRedirect =
    [.autorespond, .fileinto "INBOX.lists"] := by decide

end CyrusSieve
