import CyrusSieve.Model.Load

/-!
# The loader's handle

A load ends in one of three ways (`sieveScriptLoad_cases`): it fails and leaves `*ret` as
it was; it finds `stat`'s inode among the handle's blobs and moves the cursor there; or it
maps the file `open` gave, prepends the new blob and points the cursor at it. Everything
below is read off those three cases, for one load by case analysis and for a run of loads by
induction over `loadRun`.

The duplicate scan looks at the inode number `stat` reported, and only at that: not at the
device, and not at the file `open` then finds. Two files of one inode number on two devices
are therefore one script to the loader, and a rename between `stat` and `open` records a blob
under an inode the scan never checked. When `stat` and `open` agree (`Sys.Coherent`), no inode
is ever recorded twice (`loadRun_inodesDistinct`). And a load never fails where it could have
loaded: it returns `SIEVE_OK` exactly when the path is there under an unlisted inode and
`open` and `fstat` succeed (`sieveScriptLoad_ok_iff`).

What the loader acquires is accounted for in the same way, one load at a time
(`sieveScriptLoad_net`): a load that fails gives back the fresh handle and the descriptor it
opened, and one that succeeds keeps exactly what it adds to the handle. So after any run of
loads, what was acquired and not released is what the handle holds, and `sieve_script_unload`
releases all of it (`loadRun_unload_releases`).
-/

namespace CyrusSieve

/-- A live handle's cursor is one of its blobs. -/
def Execute.Valid (ex : Execute) : Prop := ∃ bc ∈ ex.bcList, ex.bcCur = some bc

/-- `*ret` is `NULL` or a valid handle. -/
def HandleValid (ret : Option Execute) : Prop := ∀ ex, ret = some ex → ex.Valid

/-- The handle a load works on: `*ret`, or a fresh one. -/
abbrev Execute.orFresh (ret : Option Execute) : Execute := ret.getD ⟨[], none⟩

/-- The blob a load maps for the descriptor `fd` of the file `f`. -/
abbrev Bytecode.ofStat (fd : Nat) (f : Stat) : Bytecode := ⟨fd, f.ino, f.id, f.size⟩

/-! ## One load -/

/-- The three ways `sieve_script_load` ends. -/
theorem sieveScriptLoad_cases (sys : Sys) (ret : Option Execute) :
    ((∀ s, sys.stat = some s → (Execute.orFresh ret).bcList.find? (·.inode = s.ino) = none) ∧
      sieveScriptLoad sys ret = (sieveFail, ret)) ∨
    (∃ s bc, sys.stat = some s ∧ (Execute.orFresh ret).bcList.find? (·.inode = s.ino) = some bc ∧
      sieveScriptLoad sys ret =
        (sieveScriptReloaded, some { Execute.orFresh ret with bcCur := some bc })) ∨
    (∃ s fd f, sys.stat = some s ∧ (Execute.orFresh ret).bcList.find? (·.inode = s.ino) = none ∧
      sys.openFd = some (fd, f) ∧ sieveScriptLoad sys ret = (sieveOk,
        some ⟨Bytecode.ofStat fd f :: (Execute.orFresh ret).bcList, some (Bytecode.ofStat fd f)⟩)) := by
  unfold sieveScriptLoad
  cases hs : sys.stat with
  | none => exact .inl ⟨(fun _ h => nomatch h), rfl⟩
  | some s =>
    dsimp only
    cases hbc : (ret.getD ⟨[], none⟩).bcList.find? (·.inode = s.ino) with
    | some bc => exact .inr (.inl ⟨s, bc, rfl, hbc, rfl⟩)
    | none =>
      dsimp only
      cases ho : sys.openFd with
      | none => exact .inl ⟨fun _ h => by cases h; exact hbc, rfl⟩
      | some p =>
        obtain ⟨fd, f⟩ := p
        cases sys.fstat
        · exact .inl ⟨fun _ h => by cases h; exact hbc, rfl⟩
        · exact .inr (.inr ⟨s, fd, f, rfl, hbc, rfl, rfl⟩)

theorem sieveScriptLoad_valid (sys : Sys) {ret : Option Execute} (h : HandleValid ret) :
    HandleValid (sieveScriptLoad sys ret).2 := by
  rcases sieveScriptLoad_cases sys ret with ⟨-, e⟩ | ⟨s, bc, -, hbc, e⟩ | ⟨s, fd, f, -, -, -, e⟩ <;>
    rw [e] <;> rintro ex ⟨⟩
  · exact h ex rfl
  · exact ⟨bc, List.mem_of_find?_eq_some hbc, rfl⟩
  · exact ⟨_, List.mem_cons_self _ _, rfl⟩

theorem loadRun_valid : ∀ (syss : List Sys) {ret : Option Execute}, HandleValid ret →
    HandleValid (loadRun syss ret)
  | [], _, h => h
  | sys :: syss, _, h => loadRun_valid syss (sieveScriptLoad_valid sys h)

/-- Every load on a handle that earlier loads built keeps the cursor on a blob of the list and
never removes or replaces a blob: `SIEVE_SCRIPT_RELOADED` exactly when `stat`'s inode is
already listed, and then only the cursor moves; `SIEVE_OK` prepends one blob and points the
cursor at it; `SIEVE_FAIL` leaves `*ret` as it was. -/
theorem sieveScriptLoad_handle (syss : List Sys) (sys : Sys) :
    let ret := loadRun syss none
    let ex := Execute.orFresh ret
    let r := sieveScriptLoad sys ret
    HandleValid ret ∧ HandleValid r.2 ∧
    (r.1 = sieveScriptReloaded ↔ ∃ s, sys.stat = some s ∧ ∃ bc ∈ ex.bcList, bc.inode = s.ino) ∧
    (r.1 = sieveScriptReloaded → ∃ bc ∈ ex.bcList, r.2 = some { ex with bcCur := some bc }) ∧
    (r.1 = sieveOk → ∃ bc, r.2 = some ⟨bc :: ex.bcList, some bc⟩) ∧
    (r.1 = sieveFail → r.2 = ret) ∧
    (r.1 = sieveOk ∨ r.1 = sieveScriptReloaded ∨ r.1 = sieveFail) := by
  intro ret ex r
  have hv : HandleValid ret := loadRun_valid syss fun _ h => nomatch h
  have hnone : ∀ s : Stat, ex.bcList.find? (·.inode = s.ino) = none →
      ¬∃ bc ∈ ex.bcList, bc.inode = s.ino := fun s h ⟨bc, hm, hi⟩ => by
    simp only [List.find?_eq_none, decide_eq_true_eq] at h
    exact h bc hm hi
  refine ⟨hv, sieveScriptLoad_valid sys hv, ?_⟩
  rcases sieveScriptLoad_cases sys ret with ⟨hn, e⟩ | ⟨s, bc, hs, hbc, e⟩ |
      ⟨s, fd, f, hs, hbc, -, e⟩ <;> simp only [r, e]
  · exact ⟨iff_of_false sieveFail_ne_reloaded fun ⟨s, hs, h⟩ => hnone s (hn s hs) h, fun h => absurd h sieveFail_ne_reloaded,
      fun h => absurd h sieveFail_ne_ok, fun _ => trivial, .inr (.inr trivial)⟩
  · have hm := List.mem_of_find?_eq_some hbc
    exact ⟨iff_of_true trivial ⟨s, hs, bc, hm, by simpa using List.find?_some hbc⟩,
      fun _ => ⟨bc, hm, rfl⟩, fun h => absurd h sieveOk_ne_reloaded.symm, fun h => absurd h sieveFail_ne_reloaded.symm, .inr (.inl trivial)⟩
  · refine ⟨iff_of_false sieveOk_ne_reloaded fun ⟨s', hs', h⟩ => hnone s hbc ?_, fun h => absurd h sieveOk_ne_reloaded,
      fun _ => ⟨_, rfl⟩, fun h => absurd h sieveFail_ne_ok.symm, .inl trivial⟩
    rw [hs] at hs'
    cases hs'
    exact h

/-- `stat` and `open` of a load found the same file. -/
def Sys.Coherent (sys : Sys) : Prop := ∀ fd f, sys.openFd = some (fd, f) → sys.stat = some f

theorem Fs.sys_coherent (fs : Fs) (fname : String) (fd : Nat) : (fs.sys fname fd).Coherent := by
  intro fd' f h
  obtain ⟨a, ha, he⟩ := Option.map_eq_some'.mp h
  cases he
  exact ha

/-- When nothing races a load, one that returns `SIEVE_OK` leaves the cursor on the mapping
of the file `stat` found, and one that returns `SIEVE_SCRIPT_RELOADED` on a blob recorded
under the inode number `stat` found, on whatever device. -/
theorem sieveScriptLoad_cur (fs : Fs) (fname : String) (fd : Nat) (ret : Option Execute) :
    let r := sieveScriptLoad (fs.sys fname fd) ret
    (r.1 = sieveOk → ∃ s bc, fs fname = some s ∧ r.2.bind (·.bcCur) = some bc ∧ bc.file = s.id) ∧
    (r.1 = sieveScriptReloaded →
      ∃ s bc, fs fname = some s ∧ r.2.bind (·.bcCur) = some bc ∧ bc.inode = s.ino) := by
  intro r
  rcases sieveScriptLoad_cases (fs.sys fname fd) ret with ⟨-, e⟩ | ⟨s, bc, hs, hbc, e⟩ |
      ⟨s, fd', f, hs, -, ho, e⟩ <;> simp only [r, e]
  · exact ⟨fun h => absurd h sieveFail_ne_ok, fun h => absurd h sieveFail_ne_reloaded⟩
  · exact ⟨fun h => absurd h sieveOk_ne_reloaded.symm, fun _ => ⟨s, bc, hs, rfl, by simpa using List.find?_some hbc⟩⟩
  · have hf : some f = some s := (Fs.sys_coherent fs fname fd fd' f ho).symm.trans hs
    cases hf
    exact ⟨fun _ => ⟨_, _, hs, rfl, rfl⟩, fun h => absurd h sieveOk_ne_reloaded⟩

/-- Two scripts on two devices under one inode number: loading the second after the first
reloads the first. -/
theorem reload_across_devices :
    let fs : Fs := fun p =>
      if p = "a" then some ⟨1, 7, 100⟩ else if p = "b" then some ⟨2, 7, 200⟩ else none
    let r := sieveScriptLoad (fs.sys "b" 4) (loadRun [fs.sys "a" 3] none)
    r.1 = sieveScriptReloaded ∧ (r.2.bind (·.bcCur)).map (·.file) = some ⟨1, 7⟩ ∧
      (fs "b").map Stat.id = some ⟨2, 7⟩ := by
  decide

/-! ## Distinct inodes -/

/-- No two blobs of the handle carry the same inode number. -/
def Execute.InodesDistinct (ex : Execute) : Prop := (ex.bcList.map (·.inode)).Nodup

theorem orFresh_inodesDistinct {ret : Option Execute}
    (h : ∀ ex, ret = some ex → ex.InodesDistinct) : (Execute.orFresh ret).InodesDistinct := by
  cases ret with
  | none => exact List.nodup_nil
  | some ex => exact h ex rfl

theorem sieveScriptLoad_inodesDistinct {sys : Sys} (hc : sys.Coherent) {ret : Option Execute}
    (h : ∀ ex, ret = some ex → ex.InodesDistinct) :
    ∀ ex, (sieveScriptLoad sys ret).2 = some ex → ex.InodesDistinct := by
  rcases sieveScriptLoad_cases sys ret with ⟨-, e⟩ | ⟨s, bc, -, -, e⟩ | ⟨s, fd, f, hs, hbc, ho, e⟩ <;>
    rw [e] <;> rintro ex ⟨⟩
  · exact h ex rfl
  · exact orFresh_inodesDistinct h
  · have hf : some f = some s := (hc fd f ho).symm.trans hs
    cases hf
    refine List.nodup_cons.mpr ⟨fun hm => ?_, orFresh_inodesDistinct h⟩
    obtain ⟨bc, hm, hi⟩ := List.mem_map.mp hm
    exact absurd (decide_eq_true hi) (List.find?_eq_none.mp hbc bc hm)

/-- Loads whose `stat` and `open` agree never record an inode number twice. -/
theorem loadRun_inodesDistinct : ∀ {syss : List Sys}, (∀ sys ∈ syss, sys.Coherent) →
    ∀ {ret : Option Execute}, (∀ ex, ret = some ex → ex.InodesDistinct) →
    ∀ ex, loadRun syss ret = some ex → ex.InodesDistinct
  | [], _, _, h => h
  | sys :: _, hc, _, h => loadRun_inodesDistinct (fun s hs => hc s (List.mem_cons_of_mem _ hs))
      (sieveScriptLoad_inodesDistinct (hc sys (List.mem_cons_self _ _)) h)

/-- Two scripts on one device, under inodes 1 and 2. -/
def twoScripts : Fs := fun p =>
  if p = "a" then some ⟨0, 1, 10⟩ else if p = "b" then some ⟨0, 2, 20⟩ else none

theorem loadRun_inodesDistinct_twoScripts :
    (∀ sys ∈ [twoScripts.sys "a" 3, twoScripts.sys "b" 4], sys.Coherent) ∧
    (∀ ex, (none : Option Execute) = some ex → ex.InodesDistinct) ∧
    ∀ ex, loadRun [twoScripts.sys "a" 3, twoScripts.sys "b" 4] none = some ex →
      ex.InodesDistinct :=
  have hc : ∀ sys ∈ [twoScripts.sys "a" 3, twoScripts.sys "b" 4], sys.Coherent :=
    List.forall_mem_cons.mpr ⟨Fs.sys_coherent _ _ _,
      List.forall_mem_singleton.mpr (Fs.sys_coherent _ _ _)⟩
  have h₀ : ∀ ex, (none : Option Execute) = some ex → ex.InodesDistinct := fun _ h => nomatch h
  ⟨hc, h₀, loadRun_inodesDistinct hc h₀⟩

/-- A rename of the loaded path between `stat` and `open`: the second load's scan checks
inode 2, finds nothing, and records the blob of inode 1 a second time. -/
theorem rename_between_stat_and_open :
    let fs : Fs := fun p =>
      if p = "a" then some ⟨0, 1, 10⟩ else if p = "b" then some ⟨0, 2, 20⟩ else none
    (loadRun [racedSys fs [] "a" 3, racedSys fs [.rename "a" "b"] "b" 4] none).map
      (fun ex => ex.bcList.map (·.inode)) = some [1, 1] := by
  decide

/-! ## What a handle holds -/

/-- What a live handle holds: itself, and per blob its descriptor, record and mapping. -/
def Execute.held (ex : Execute) : List Res :=
  .handle :: ex.bcList.flatMap fun bc => [.fd bc.fd, .record bc.fd, .map bc.fd]

/-- What `*ret` holds. -/
def heldBy : Option Execute → List Res
  | none => []
  | some ex => ex.held

theorem sieveScriptLoad_net (sys : Sys) (ret : Option Execute) (r : Res) :
    (sieveScriptLoadEffects sys ret).count (.acquire r) + (heldBy ret).count r =
      (sieveScriptLoadEffects sys ret).count (.release r) +
        (heldBy (sieveScriptLoad sys ret).2).count r := by
  unfold sieveScriptLoadEffects sieveScriptLoad
  rcases sys.stat with _ | sbuf
  · rfl
  dsimp only
  split
  · cases ret <;> simp [heldBy, Execute.held, List.count_cons]
  · rcases sys.openFd with _ | ⟨fd, f⟩
    · cases ret <;> simp [heldBy, List.count_cons]
    · cases sys.fstat <;> cases ret <;>
        simp only [heldBy, Execute.held, Option.isNone_none, Option.isNone_some, Option.getD_none,
          Option.getD_some, List.flatMap_cons, List.flatMap_nil, List.cons_append, List.nil_append,
          List.append_nil, List.count_cons, List.count_nil, beq_iff_eq, Own.acquire.injEq,
          Own.release.injEq, reduceCtorEq, reduceIte, Bool.false_eq_true, if_false] <;> omega

theorem sieveScriptLoad_accounts (sys : Sys) {evs : List (Own Res)} {ret : Option Execute}
    (h : Own.Accounts evs (heldBy ret)) :
    Own.Accounts (evs ++ sieveScriptLoadEffects sys ret) (heldBy (sieveScriptLoad sys ret).2) := fun r => by
  have := sieveScriptLoad_net sys ret r
  have := h r
  simp only [List.count_append]
  omega

theorem loadRun_accounts : ∀ (syss : List Sys) {evs : List (Own Res)} {ret : Option Execute},
    Own.Accounts evs (heldBy ret) →
      Own.Accounts (evs ++ loadRunEffects syss ret) (heldBy (loadRun syss ret))
  | [], _, _, h => by simpa [loadRunEffects, loadRun] using h
  | sys :: syss, _, _, h => by
    rw [loadRunEffects, loadRun, ← List.append_assoc]
    exact loadRun_accounts syss (sieveScriptLoad_accounts sys h)

theorem sieveScriptUnloadEffects_count (ex : Execute) (r : Res) :
    (sieveScriptUnloadEffects (some ex)).count (.acquire r) = 0 ∧
    (sieveScriptUnloadEffects (some ex)).count (.release r) = ex.held.count r := by
  obtain ⟨bcs, -⟩ := ex
  simp only [sieveScriptUnloadEffects, Execute.held]
  induction bcs with
  | nil => simp [List.count_cons]
  | cons bc bcs ih =>
    simp only [List.flatMap_cons, List.append_assoc, List.count_append, List.count_cons] at ih ⊢
    simp at ih ⊢
    omega

theorem sieveScriptUnload_accounts {evs : List (Own Res)} {ret : Option Execute}
    (h : Own.Accounts evs (heldBy ret)) :
    Own.Accounts (evs ++ sieveScriptUnloadEffects ret) (heldBy (sieveScriptUnload ret).2) := fun r => by
  have := h r
  cases ret with
  | none => simpa [sieveScriptUnloadEffects, sieveScriptUnload] using this
  | some ex =>
    obtain ⟨ha, hr⟩ := sieveScriptUnloadEffects_count ex r
    simp only [heldBy] at this
    simp only [List.count_append, ha, hr, sieveScriptUnload, heldBy, List.count_nil]
    omega

/-- Loads on a handle that starts out `NULL`, whatever the system answers each of them, have
acquired and not released exactly what the handle holds: itself and each blob's descriptor,
record and mapping. The unload that follows releases every one of them once. -/
theorem loadRun_unload_releases (syss : List Sys) (r : Res) :
    (loadRunEffects syss none).count (.acquire r) =
      (loadRunEffects syss none).count (.release r) + (heldBy (loadRun syss none)).count r ∧
    (loadRunEffects syss none ++ sieveScriptUnloadEffects (loadRun syss none)).count (.acquire r) =
      (loadRunEffects syss none ++ sieveScriptUnloadEffects (loadRun syss none)).count
        (.release r) := by
  have h := @loadRun_accounts syss [] none fun _ => rfl
  rw [List.nil_append] at h
  have hu := sieveScriptUnload_accounts h r
  refine ⟨h r, ?_⟩
  cases hl : loadRun syss none <;> simpa [sieveScriptUnload, heldBy, hl] using hu

end CyrusSieve
