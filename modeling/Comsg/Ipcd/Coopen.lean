import Comsg.Include.Coport
import Comsg.Lib.Transition

/-!
# `Comsg.Ipcd.Coopen`: concurrent requests to open a coport

`coport_open` tests `ncoports` in `can_allocate_coport`, takes an index from `next_coport` in
`allocate_coport`, and counts the coport there as well. Each of the three is one atomic step on a
counter of the table (`coopen.c:139-145`, `coport_table.c:116-123, 137`). ipcd serves a request on
a thread of its own, so the steps of several requests interleave.

The model is the table of one type. The requests are in a list, in the order in which they
arrive. What is done to the entry is left out: no other request sees it.
-/

set_option autoImplicit false

namespace Comsg.Ipcd

open Comsg.Lib

/-- `max_coports`. -/
def maxCoports : Nat := 256

/-- Where a request is: it has arrived, it has passed the test, it has taken the entry `index`, it
was answered with the entry, or it was answered with `ENOMEM`. -/
inductive OpenPhase
  | arrived
  | tested
  | indexed (index : Nat)
  | opened (index : Nat)
  | refused
  deriving DecidableEq, Repr

/-- `struct _coport_table`, and the requests. -/
structure OpenState where
  nextCoport : Nat
  ncoports : Nat
  requests : List OpenPhase
  deriving DecidableEq, Repr

/-- The table after `setup_table`. -/
def OpenState.init : OpenState := ⟨0, 0, []⟩

/-- The steps of the requests. -/
inductive OpenAct
  | arrive
  | canAllocate (r : Nat)
  | takeIndex (r : Nat)
  | countCoport (r : Nat)
  deriving DecidableEq, Repr

/-- One step. -/
def openStep (s : OpenState) : OpenAct → Option OpenState
  | .arrive => some { s with requests := s.requests ++ [.arrived] }
  | .canAllocate r =>
    match s.requests[r]? with
    | some .arrived =>
      if s.ncoports = maxCoports then some { s with requests := s.requests.set r .refused }
      else some { s with requests := s.requests.set r .tested }
    | _ => none
  | .takeIndex r =>
    match s.requests[r]? with
    | some .tested =>
      some { s with
        nextCoport := s.nextCoport + 1
        requests := s.requests.set r (.indexed s.nextCoport) }
    | _ => none
  | .countCoport r =>
    match s.requests[r]? with
    | some (.indexed i) =>
      some { s with ncoports := s.ncoports + 1, requests := s.requests.set r (.opened i) }
    | _ => none

end Comsg.Ipcd
