import Comsg.Coprocd.Monitor

/-!
# `Comsg.Coprocd.InitModule`: the flags of daemons, and what they are for

`daemon.h:89-103` lists five flags and says what each of them is for. The flags of a daemon are
combined with bitwise or (`DaemonFlags.word`). The constants of the enumeration number the flags
from 0 on, and they are not distinct bits.

* `initCalls`: the loop of `init_module` (`module.c:57-90`), with the calls that it makes and how
  it ends. `Comsg.Coprocd.Monitor` has its effect on the table, and `replay` is how the two are
  connected.
* `RulesMet`, `documentedCalls`: what the comment in `daemon.h` says.
-/

set_option autoImplicit false

namespace Comsg.Coprocd

/-- A set of flags. -/
structure DaemonFlags where
  setpgrp : Bool
  leader : Bool
  setuid : Bool
  onDemand : Bool
  synchronous : Bool
  deriving DecidableEq, Repr

/-- The flags of the set, combined with bitwise or. -/
def DaemonFlags.word (f : DaemonFlags) : Nat :=
  (if f.setpgrp then Coprocd.setpgrp else 0) ||| (if f.leader then Coprocd.leader else 0) |||
    (if f.setuid then Coprocd.setuid else 0) ||| (if f.onDemand then Coprocd.onDemand else 0) |||
    (if f.synchronous then Coprocd.synchronous else 0)

/-! ### `init_module` -/

/-- A call of `init_daemon`, and the wait for `CONTINUING` or `RUNNING`. -/
inductive ModuleCall
  | start (i : Nat)
  | wait (i : Nat)
  deriving DecidableEq, Repr

/-- How `init_module` ends: `err` at a daemon, a return of -1, a wait without end, or a return. -/
inductive ModuleEnd
  | rejected (i : Nat)
  | failed
  | waiting
  | completed
  deriving DecidableEq, Repr

/-- The loop of `init_module` from daemon `i` on. `expect` is `expect_setpgrp`. -/
def initCalls (k : Nat) (o : Launch) : Nat → Bool → List Nat → List ModuleCall × ModuleEnd
  | _, _, [] => ([], .completed)
  | i, expect, flags :: rest =>
    let expect := expect || decide (HasFlag flags leader)
    if Manager.flagsOk flags i expect = false then ([], .rejected i)
    else if ¬HasFlag flags leader ∧ HasFlag flags onDemand then initCalls k o (i + 1) expect rest
    else if (o.spawn ⟨k, i⟩).isNone then ([.start i], .failed)
    else if HasFlag flags synchronous then
      match o.ready ⟨k, i⟩ with
      | .continuing | .running =>
        let (calls, e) := initCalls k o (i + 1) expect rest
        (.start i :: .wait i :: calls, e)
      | .starting => ([.start i, .wait i], .waiting)
      | _         => ([.start i, .wait i], .failed)
    else
      let (calls, e) := initCalls k o (i + 1) expect rest
      (.start i :: calls, e)

/-- What the calls do to the table. -/
def replay (k : Nat) (o : Launch) (s : Manager) : ModuleCall → Manager
  | .start i => (s.initDaemon ⟨k, i⟩ o).1
  | .wait i  => s.setStatus ⟨k, i⟩ (o.ready ⟨k, i⟩)

/-- What `init_module` leaves, if it returns. -/
def ModuleEnd.result (s : Manager) : ModuleEnd → Option (Manager × Bool)
  | .rejected _ | .waiting => none
  | .failed                => some (s, false)
  | .completed             => some (s, true)

/-- `init_module` has called `err`. -/
def ModuleEnd.isRejected : ModuleEnd → Bool
  | .rejected _ => true
  | _           => false

/-- Every daemon of module `k` that is started comes up. -/
def Launch.Succeeds (o : Launch) (k : Nat) : Prop :=
  ∀ i, (o.spawn ⟨k, i⟩).isSome = true ∧
    (o.ready ⟨k, i⟩ = .continuing ∨ o.ready ⟨k, i⟩ = .running)

/-! ### The documentation -/

/-- The rules for `SETPGRP` and `LEADER`. -/
structure RulesMet (fs : List DaemonFlags) : Prop where
  first : ∀ (i : Nat) (f : DaemonFlags), fs[i]? = some f → f.leader = true → i = 0
  all : (∃ f ∈ fs, f.leader = true) → ∀ f ∈ fs, f.setpgrp = true
  led : (∃ f ∈ fs, f.setpgrp = true) → ∃ f ∈ fs, f.leader = true

/-- The daemons from `i` on are started but for those that `skip` names, and those with
`SYNCHRONOUS` are waited for. -/
def callsExcept (skip : DaemonFlags → Bool) : Nat → List DaemonFlags → List ModuleCall
  | _, []      => []
  | i, f :: fs =>
    (if skip f then [] else if f.synchronous then [.start i, .wait i] else [.start i]) ++
      callsExcept skip (i + 1) fs

/-- Those with `ON_DEMAND` are not started. -/
def documentedCalls (fs : List DaemonFlags) : List ModuleCall :=
  callsExcept DaemonFlags.onDemand 0 fs

/-- `init_module` does what is documented when the daemons come up. -/
def ImplementsFlags (k : Nat) (fs : List DaemonFlags) : Prop :=
  ∀ o : Launch, o.Succeeds k →
    ((initCalls k o 0 false (fs.map DaemonFlags.word)).2.isRejected = true ↔ ¬RulesMet fs) ∧
    (RulesMet fs → initCalls k o 0 false (fs.map DaemonFlags.word) =
      (documentedCalls fs, .completed))

end Comsg.Coprocd
