import Comsg.Coeventd.Coevent
import Mathlib.Logic.Function.Basic

/-!
# `Comsg.Coeventd.Trigger`: installers against the trigger of one event

Any number of `ccb_install` requests run against `trigger_cocallbacks` for the same event.

* `install_cocallback`: `cocallback_install.c:60-79`. `lock_coevent`, `add_cocallback` and
  `unlock_coevent` are one step each.
* `trigger_cocallbacks`: `procdeath.c:146-170`. The kernel reports a death once. The stores to
  `in_progress`, each `get_next_cocallback` and the return of each callback are one step each.

A callback that fails ends coeventd, and so does a failed assertion. No step is enabled then, as
for a request that spins. `added`, `executed` and `installed` record what was queued, what the
trigger has started, and the requests that returned success.
-/

set_option autoImplicit false

namespace Comsg.Coeventd

/-- Where a request is in `install_cocallback`. -/
inductive InstallPc
  | outside
  | locked (func : Ptr) (args : CocallbackArgs)
  | added (ccb : Cocallback)
  deriving DecidableEq, Repr

/-- Where the trigger is. -/
inductive TriggerPc
  | waiting
  | draining
  | executing
  | drained
  | finished
  deriving DecidableEq, Repr

/-- One event with its installers and its trigger. -/
structure Trigger where
  event : Coevent
  callers : Nat → InstallPc
  trigger : TriggerPc
  added : List Cocallback
  executed : List Cocallback
  installed : List Cocallback

/-- The event that `allocate_procdeath_event` has set up for `pid`. -/
def initTrigger (pid : Nat) : Trigger where
  event := ⟨pid, 0, []⟩
  callers := fun _ => .outside
  trigger := .waiting
  added := []
  executed := []
  installed := []

/-- A step of an installer, or of the trigger. -/
inductive TriggerAct
  | lock (t : Nat) (func : Ptr) (args : CocallbackArgs)
  | add (t : Nat)
  | unlock (t : Nat)
  | fire
  | next
  | returned
  | finish
  deriving DecidableEq, Repr

namespace Trigger

/-- Caller `t` goes to `pc`, with the event `e`. -/
def goto (s : Trigger) (t : Nat) (pc : InstallPc) (e : Coevent) : Trigger :=
  { s with event := e, callers := Function.update s.callers t pc }

/-- One step. -/
def step (s : Trigger) : TriggerAct → Option Trigger
  | .lock t func args =>
    match s.callers t, s.event.lockCoevent with
    | .outside, .ok e => some (s.goto t (.locked func args) e)
    | _, _            => none
  | .add t =>
    match s.callers t with
    | .locked func args =>
      let ccb : Cocallback := ⟨s.added.length, func, args⟩
      match s.event.addCocallback ccb with
      | .ok e    => some { s.goto t (.added ccb) e with added := s.added ++ [ccb] }
      | .error _ => none
    | _ => none
  | .unlock t =>
    match s.callers t, s.event.unlockCoevent with
    | .added ccb, .ok e => some { s.goto t .outside e with installed := s.installed ++ [ccb] }
    | _, _              => none
  | .fire =>
    if s.trigger = .waiting then
      some { s with trigger := .draining, event := { s.event with inProgress := 1 } }
    else none
  | .next =>
    if s.trigger = .draining then
      match s.event.getNextCocallback with
      | (none, e)     => some { s with trigger := .drained, event := e }
      | (some ccb, e) =>
        some { s with trigger := .executing, event := e, executed := s.executed ++ [ccb] }
    else none
  | .returned => if s.trigger = .executing then some { s with trigger := .draining } else none
  | .finish =>
    if s.trigger = .drained then
      some { s with trigger := .finished, event := { s.event with inProgress := -1 } }
    else none

end Trigger

end Comsg.Coeventd
