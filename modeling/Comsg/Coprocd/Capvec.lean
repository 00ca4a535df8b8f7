import Comsg.Coprocd.Core
import Comsg.Lib.Compression
import Mathlib.Algebra.Group.Int.Defs

/-!
# `Comsg.Coprocd.Capvec`: the capability vectors of the core daemons

A daemon is started with a vector of capabilities, which it reads through a struct of its own.

* `capvecAllocate`, `capvecAppend`, `capvecFinalize`: `capvec.c:40-98`.
* `buildDaemonCapvec`: what goes into the vector (`daemon.c:151-217`, `core.c:47-65` and
  `core.c:232-271`).
* `CoreDaemon.capvec`: the structs that the daemons read it through (`nsd.h`, `coserviced.h`,
  `coeventd.h` and `ipcd.h`).

A capability has 16 bytes, and the lengths below `2 ^ 12` bytes are exact. `calloc` is not part of
the repository. A `Calloc` is what is known of it.
-/

set_option autoImplicit false

namespace Comsg.Coprocd

open Comsg.Lib

/-- A failed assertion, or an access that the hardware refuses. -/
inductive CapvecError
  | assertion
  | fault
  deriving DecidableEq, Repr

/-- `sizeof(void *)`. -/
def sizeofCap : Nat := 16

/-- `sizeof(struct coexecve_capvec)`. -/
def sizeofCapvec : Nat := 32

/-- `calloc`, by the bytes that are asked for and those that the capability covers. The result may
depend on what happened before, so the calls are numbered. `none` is `NULL`. -/
structure Calloc where
  calloc : Nat → Nat → Option Nat
  le : ∀ call n m, calloc call n = some m → n ≤ m
  lt : ∀ call n m, calloc call n = some m → m < 2 ^ 64
  representable : ∀ call n m, calloc call n = some m → Representable 12 m

/-- `struct coexecve_capvec`. `capv` is the memory that its capability covers. -/
structure Capvec (α : Type) where
  capv : Option (List (Option α))
  length : Int
  index : Int
  deriving DecidableEq

section Capvecs
variable {α : Type}

/-- `capvec_allocate`. What `calloc` returns is not tested, and `maxlen + 1` may overflow. -/
def capvecAllocate (heap : Calloc) (maxlen : Int) : Except CapvecError (Capvec α) :=
  if 0 < maxlen then
    match heap.calloc 0 sizeofCapvec with
    | none   => .error .fault
    | some _ =>
      let nmemb := ((maxlen + 1) % 2 ^ 64).toNat
      .ok {
        capv := (heap.calloc 1 (sizeofCap * nmemb)).map fun m =>
          List.replicate (m / sizeofCap) none
        length := (maxlen + 1).bmod (2 ^ 64)
        index := 0 }
  else .error .assertion

/-- The store `capv[i] = cap`. -/
def capvStore (capv : Option (List (Option α))) (i : Int) (cap : Option α) :
    Except CapvecError (List (Option α)) :=
  match capv with
  | none     => .error .fault
  | some mem => if 0 ≤ i ∧ i < mem.length then .ok (mem.set i.toNat cap) else .error .fault

/-- `capvec_append`. Nobody else appends to the vector, so the compare-exchange succeeds. -/
def capvecAppend (capvec : Capvec α) (cap : Option α) : Except CapvecError (Capvec α) := do
  let i := capvec.index
  if i = -1 then throw .assertion
  if ¬i + 1 < capvec.length then throw .assertion
  let mem ← capvStore capvec.capv i cap
  return { capvec with capv := some mem, index := i + 1 }

/-- `cheri_setbounds` of a vector. The bounds that are asked for are rounded up, and they have to
be within those that there are. -/
def capvSetbounds (mem : List (Option α)) (l : Nat) : Except CapvecError (List (Option α)) :=
  let n := representableLength 12 l / sizeofCap
  if n ≤ mem.length then .ok (mem.take n) else .error .fault

/-- `capvec_finalize`. -/
def capvecFinalize (capvec : Capvec α) : Except CapvecError (Capvec α × List (Option α)) := do
  let i := capvec.index
  if i = -1 then throw .assertion
  if ¬i + 1 ≤ capvec.length then throw .assertion
  let mem ← capvStore capvec.capv i none
  let capv ← capvSetbounds mem (sizeofCap * (i + 1).toNat)
  return ({ capvec with capv := some mem, index := -1 }, capv)

/-- The vector of a list of capabilities. -/
def makeCapvec (heap : Calloc) (maxlen : Int) (caps : List (Option α)) :
    Except CapvecError (List (Option α)) := do
  let capvec ← capvecAllocate heap maxlen
  let capvec ← caps.foldlM capvecAppend capvec
  let (_, capv) ← capvecFinalize capvec
  return capv

end Capvecs

/-! ### The core daemons -/

/-- The functions of `core.c` that a daemon calls. -/
inductive InitFunc
  | nsdSetup
  | nsdSetupComplete
  | coservicedSetup
  | coeventdSetupComplete
  | ipcdSetupComplete
  deriving DecidableEq, Repr

/-- The functions of `core.c` that fill a vector. -/
inductive CapvFunc
  | getCoservicedCapv
  | getCoeventdCapv
  | getIpcdCapv
  deriving DecidableEq, Repr

/-- `daemon_setup_info`. `none` is `NULL`. -/
structure DaemonSetupInfo where
  setup : Option InitFunc
  done : Option InitFunc
  getCapv : Option CapvFunc
  nCaps : Int
  deriving DecidableEq, Repr

/-- The daemons that coprocd starts in the core module. -/
inductive CoreDaemon
  | nsd
  | coserviced
  | coeventd
  | ipcd
  deriving DecidableEq, Repr

/-- `nsd_init`, `coserviced_init`, `coeventd_init` and `ipcd_init`. -/
def CoreDaemon.setupInfo : CoreDaemon → DaemonSetupInfo
  | .nsd        => ⟨some .nsdSetup, some .nsdSetupComplete, none, 0⟩
  | .coserviced => ⟨some .coservicedSetup, none, some .getCoservicedCapv, 3⟩
  | .coeventd   => ⟨none, some .coeventdSetupComplete, some .getCoeventdCapv, 4⟩
  | .ipcd       => ⟨none, some .ipcdSetupComplete, some .getIpcdCapv, 4⟩

/-- `daemon_setup_state`: the SCBs of the workers, where there are workers. -/
structure DaemonSetupState (α : Type) where
  setupWorker : Option (Option α)
  doneWorker : Option (Option α)
  deriving DecidableEq

section Build
variable {α : Type}

/-- `spawn_daemon_initializer`. `scb` is the SCB of the worker that is spawned for a function. -/
def spawnDaemonInitializer (scb : InitFunc → Option α) (state : Option (DaemonSetupState α))
    (info : DaemonSetupInfo) : DaemonSetupState α :=
  let state := state.getD ⟨none, none⟩
  { setupWorker := (info.setup.map scb).or state.setupWorker
    doneWorker := (info.done.map scb).or state.doneWorker }

/-- `get_coserviced_capv`. -/
def getCoservicedCapv (core : Core α) (capvec : Capvec α) : Except CapvecError (Capvec α) :=
  if core.rootNamespace.isSome ∧ core.coinsertScb.isSome ∧ core.coselectScb.isSome then
    [core.rootNamespace, core.coinsertScb, core.coselectScb].foldlM capvecAppend capvec
  else .error .assertion

/-- The body of `get_coeventd_capv` and `get_ipcd_capv`. -/
def getAllCapv (core : Core α) (capvec : Capvec α) : Except CapvecError (Capvec α) :=
  if core.coprocInited ∧ core.rootNamespace.isSome ∧ core.codiscoverScb.isSome ∧
      core.coinsertScb.isSome ∧ core.coselectScb.isSome then
    [core.rootNamespace, core.codiscoverScb, core.coinsertScb, core.coselectScb].foldlM
      capvecAppend capvec
  else .error .assertion

/-- `get_coeventd_capv`. -/
def getCoeventdCapv (core : Core α) (capvec : Capvec α) : Except CapvecError (Capvec α) :=
  getAllCapv core capvec

/-- `get_ipcd_capv`. -/
def getIpcdCapv (core : Core α) (capvec : Capvec α) : Except CapvecError (Capvec α) :=
  getAllCapv core capvec

/-- The call of `get_capv`. -/
def callGetCapv (core : Core α) : CapvFunc → Capvec α → Except CapvecError (Capvec α)
  | .getCoservicedCapv => getCoservicedCapv core
  | .getCoeventdCapv   => getCoeventdCapv core
  | .getIpcdCapv       => getIpcdCapv core

/-- `build_daemon_capvec`, up to `capvec_finalize`. -/
def fillDaemonCapvec (heap : Calloc) (core : Core α) (info : DaemonSetupInfo)
    (state : DaemonSetupState α) : Except CapvecError (Capvec α) := do
  let capvec ← capvecAllocate heap (info.nCaps + 2)
  let capvec ← state.setupWorker.elim (pure capvec) (capvecAppend capvec)
  let capvec ← state.doneWorker.elim (pure capvec) (capvecAppend capvec)
  info.getCapv.elim (pure capvec) fun f => callGetCapv core f capvec

/-- `build_daemon_capvec`. -/
def buildDaemonCapvec (heap : Calloc) (core : Core α) (info : DaemonSetupInfo)
    (state : DaemonSetupState α) : Except CapvecError (List (Option α)) := do
  let capvec ← fillDaemonCapvec heap core info state
  let (_, capv) ← capvecFinalize capvec
  return capv

end Build

/-! ### The structs of the daemons -/

/-- The fields of the structs. -/
inductive CapvecField
  | coprocInit
  | coprocInitDone
  | rootNs
  | codiscover
  | coinsert
  | coselect
  deriving DecidableEq, Repr

/-- `struct nsd_capvec`. -/
def nsdCapvec : List CapvecField := [.coprocInit, .coprocInitDone]

/-- `struct coserviced_capvec`. -/
def coservicedCapvec : List CapvecField := [.coprocInit, .rootNs, .coinsert, .coselect]

/-- `struct coeventd_capvec`. -/
def coeventdCapvec : List CapvecField :=
  [.coprocInitDone, .rootNs, .codiscover, .coinsert, .coselect]

/-- `struct ipcd_capvec`. -/
def ipcdCapvec : List CapvecField :=
  [.coprocInitDone, .rootNs, .codiscover, .coinsert, .coselect]

/-- The struct of a daemon, with its fields in order. -/
def CoreDaemon.capvec : CoreDaemon → List CapvecField
  | .nsd        => nsdCapvec
  | .coserviced => coservicedCapvec
  | .coeventd   => coeventdCapvec
  | .ipcd       => ipcdCapvec

/-- What a daemon reads in a field of its struct. `none` is an access out of bounds. -/
def CoreDaemon.read {α : Type} (d : CoreDaemon) (capv : List (Option α)) (f : CapvecField) :
    Option (Option α) :=
  capv[d.capvec.idxOf f]?

end Comsg.Coprocd
