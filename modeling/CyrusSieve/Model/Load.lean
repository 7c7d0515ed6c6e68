import CyrusSieve.Model.Types

/-!
# `sieve_script_load` and `sieve_script_unload`

A handle is the list of mapped blobs, newest first, and the cursor `bc_cur`. The loader
touches the file system three times: `stat` on the path, `open` on the path, and `fstat`
on the descriptor `open` gave. `Sys` is what those three calls return; the loader is a
function of it and of the handle it is given.

Nothing ties the three answers together in general. When no other process changes the
path during the call, `stat` and `open` find the same file (`Fs.sys`); when one renames
or links files between the two, they need not (`racedSys`). Keeping the calls' answers as
the input lets both situations be stated over one definition of the loader.
-/

namespace CyrusSieve

/-- A file's identity: device and inode number. -/
structure FileId where
  dev : Nat
  ino : Nat
  deriving DecidableEq, Repr

/-- The part of `struct stat` the loader reads. -/
structure Stat where
  dev : Nat
  ino : Nat
  size : Nat
  deriving DecidableEq, Repr

/-- The file a `struct stat` describes. -/
def Stat.id (s : Stat) : FileId := ⟨s.dev, s.ino⟩

/-- `sieve_bytecode_t`: the descriptor, the inode the blob is recorded under, and the
mapping, as the file the descriptor refers to and the mapped length. -/
structure Bytecode where
  fd : Nat
  inode : Nat
  file : FileId
  len : Nat
  deriving DecidableEq, Repr

/-- `sieve_execute_t`: `bc_list`, newest first, and `bc_cur`. -/
structure Execute where
  bcList : List Bytecode
  bcCur : Option Bytecode
  deriving DecidableEq, Repr

/-- What the system calls of one load return: `stat` of the path; `open` of the path, as
the descriptor and the file it refers to; and whether `fstat` of that descriptor succeeded. -/
structure Sys where
  stat : Option Stat
  openFd : Option (Nat × Stat)
  fstat : Bool
  deriving DecidableEq, Repr

/-- `sieve_script_load`, given `*ret`: the result and the new `*ret`. A fresh handle that
is freed again on failure leaves `*ret` as it was, `NULL`. -/
def sieveScriptLoad (sys : Sys) (ret : Option Execute) : BitVec 32 × Option Execute :=
  match sys.stat with
  | none => (sieveFail, ret)
  | some sbuf =>
    let ex := ret.getD ⟨[], none⟩
    match ex.bcList.find? (·.inode = sbuf.ino) with
    | some bc => (sieveScriptReloaded, some { ex with bcCur := some bc })
    | none =>
      match sys.openFd with
      | none => (sieveFail, ret)
      | some (fd, f) =>
        if sys.fstat then
          let bc : Bytecode := ⟨fd, f.ino, f.id, f.size⟩
          (sieveOk, some ⟨bc :: ex.bcList, some bc⟩)
        else (sieveFail, ret)

/-- `sieve_script_unload`: `SIEVE_FAIL` only for a `NULL` handle. -/
def sieveScriptUnload : Option Execute → BitVec 32 × Option Execute
  | none => (sieveFail, none)
  | some _ => (sieveOk, none)

/-- Successive loads on one handle, each with its own system-call answers. -/
def loadRun : List Sys → Option Execute → Option Execute
  | [], ret => ret
  | sys :: syss, ret => loadRun syss (sieveScriptLoad sys ret).2

/-! ## What the loader acquires -/

/-- What the loader acquires and must give back: the handle (the `xzmalloc` of a
`sieve_execute_t`), and per blob the descriptor `open` gave, the `sieve_bytecode_t` record
and the mapping of the file, the last two named by that descriptor. -/
inductive Res
  | handle
  | fd (n : Nat)
  | record (n : Nat)
  | map (n : Nat)
  deriving DecidableEq, Repr

/-- What `sieve_script_load` acquires (`xzmalloc`, `open`, `map_refresh`) and releases
(`free`, `close`), in order: a fresh handle when `*ret` is
`NULL`, freed again when the load fails (`dofree`); the descriptor `open` gives, closed again
when `fstat` fails; and on success the record and the mapping. -/
def sieveScriptLoadEffects (sys : Sys) (ret : Option Execute) : List (Own Res) :=
  match sys.stat with
  | none => []
  | some sbuf =>
    let alloc : List (Own Res) := if ret.isNone then [.acquire .handle] else []
    let dofree : List (Own Res) := if ret.isNone then [.release .handle] else []
    match (ret.getD ⟨[], none⟩).bcList.find? (·.inode = sbuf.ino) with
    | some _ => alloc
    | none =>
      match sys.openFd with
      | none => alloc ++ dofree
      | some (fd, _) =>
        if sys.fstat then alloc ++ [.acquire (.fd fd), .acquire (.record fd), .acquire (.map fd)]
        else alloc ++ [.acquire (.fd fd), .release (.fd fd)] ++ dofree

/-- What `sieve_script_unload` releases: for each blob, newest first, its mapping, its
descriptor and its record; then the handle. -/
def sieveScriptUnloadEffects : Option Execute → List (Own Res)
  | none => []
  | some ex =>
    ex.bcList.flatMap (fun bc => [.release (.map bc.fd), .release (.fd bc.fd), .release (.record bc.fd)]) ++
      [.release .handle]

/-- What successive loads on one handle acquire and release. -/
def loadRunEffects : List Sys → Option Execute → List (Own Res)
  | [], _ => []
  | sys :: syss, ret => sieveScriptLoadEffects sys ret ++ loadRunEffects syss (sieveScriptLoad sys ret).2

/-! ## The file system around a load -/

/-- A file system: the file, if any, each path names. -/
def Fs := String → Option Stat

/-- The answers of a load of `fname` that no other process races: `stat` and `open` find
the same file, and `fstat` succeeds. -/
def Fs.sys (fs : Fs) (fname : String) (fd : Nat) : Sys :=
  ⟨fs fname, (fs fname).map (fd, ·), true⟩

/-- What other processes do to the file system meanwhile. -/
inductive FsOp
  | rename (src dst : String)
  | link (src dst : String)

/-- `rename (2)` and `link (2)`: a rename replaces its target, a link refuses an existing
one, and both refuse a missing source. -/
def Fs.apply (fs : Fs) : FsOp → Fs
  | .rename src dst => fun p =>
    if (fs src).isNone then fs p else if p = dst then fs src else if p = src then none else fs p
  | .link src dst => fun p =>
    if (fs src).isNone ∨ (fs dst).isSome then fs p else if p = dst then fs src else fs p

/-- The answers of a load of `fname` whose `stat` sees `fs` and whose `open` comes after
`ops` (`fstat` reads the descriptor, so it describes the file `open` found). -/
def racedSys (fs : Fs) (ops : List FsOp) (fname : String) (fd : Nat) : Sys :=
  ⟨fs fname, ((ops.foldl Fs.apply fs) fname).map (fd, ·), true⟩

end CyrusSieve
