import Comsg.Ipcd.Coport

/-!
# `Comsg.Ipcd.ListenerList`: the listeners of one cocarrier

The sections that work on the listener list of a cocarrier and on `levent`, each of them atomic
under the status lock, in any order. Between them the other handlers may do anything to the other
fields, so `event` can have any value when a delivery reads it.

* `register`, `unregister`: `wait_for_events`, `copoll.c:129-156`. A listener that a delivery has
  removed is not in the list, and it is left alone.
* `deliver`: `process_coport_event`, `copoll_deliver.c:75-94`. Its assertion ends ipcd. It returns
  before the lock when nobody listens, and then there is no such section.
* `work`: any other handler.
-/

set_option autoImplicit false

namespace Comsg.Ipcd

open Comsg.Lib

/-- A section under the status lock of a cocarrier. -/
inductive ListenAct
  | register (l : ListenEntry)
  | unregister (l : ListenEntry)
  | deliver
  | work (port : Coport)

/-- One section. -/
def Coport.listenStep (port : Coport) : ListenAct → Option Coport
  | .register l   => some (port.addListener l)
  | .unregister l => some (port.removeListener l)
  | .deliver      => if Meets port.event port.levent then some port.deliver else none
  | .work port' =>
    -- No other handler touches the list or `levent`.
    if port'.listeners = port.listeners ∧ port'.levent = port.levent then some port' else none

end Comsg.Ipcd
