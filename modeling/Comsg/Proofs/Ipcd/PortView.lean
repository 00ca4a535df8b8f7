import Comsg.Proofs.Ipcd.NotifierLoop
import Mathlib.Algebra.BigOperators.Fin
import Mathlib.Algebra.Order.BigOperators.Group.Finset

/-!
# `Comsg.Proofs.Ipcd.PortView`: the system as one cocarrier sees it

A `PortView` is one cocarrier, what each thread is doing with it (`Role`), and the number of
its events in the notifiers' queues. Threads that work on other ports are `away`. `PortStep`
is the machine of these views: the steps of the handlers on one port, with everything else
left out. The invariants of a single port are proved for `PortStep`.

`viewOf_step` connects the two levels. Each step of the system, seen from a port, is a step
of that port's view or leaves the view as it is. It needs the copoll mutex and the queues in
order, which `Comsg.Proofs.Ipcd.NotifierLoop` provides.
-/

set_option autoImplicit false

namespace Comsg.Proofs.Ipcd

open Comsg.Lib
open Comsg.Ipcd

/-- What a thread does with a port once it has released it. -/
inductive Follow
  | done
  /-- Read the slot, then announce `COPOLL_OUT`. -/
  | read
  | notify (event : CoportEventmask)

/-- What a thread is doing with one port. -/
inductive Role
  /-- Nothing that shows on the port. -/
  | away
  /-- A poller, with the copoll mutex, waits for the port's status. -/
  | waiting
  /-- The locked sections, with the status that was found. -/
  | sending (msg : Message)
  | receiving (found : CoportStatus) (closing : Bool)
  | closing
  | registering (l : ListenEntry)
  | unregistering (l : ListenEntry)
  | delivering (found : CoportStatus)
  /-- The work is done, the status is about to be stored. -/
  | storing (status : CoportStatus) (follow : Follow)
  /-- A receive after its release, before it reads the slot. -/
  | reading
  /-- Before the test of `copoll_notify`. -/
  | announcing (event : CoportEventmask)
  /-- In the queueing branch of `copoll_notify`, before the put. -/
  | committed
  /-- In the other branch. -/
  | opening

/-- What follows the release, as the port sees it. -/
def followOf : After → Follow
  | .read _         => .read
  | .notify event _ => .notify event
  | _               => .done

/-- `r` if the port meant is `p`. -/
def onPort (p q : Nat) (r : Role) : Role := if q = p then r else .away

/-- What a thread at `c` is doing with port `p`. -/
def role (p : Nat) : Pc → Role
  | .sendLocked q msg _ => onPort p q (.sending msg)
  | .recvLocked q status closing => onPort p q (.receiving status closing)
  | .closeLocked q => onPort p q .closing
  | .registerAcquire _ _ target | .unregisterAcquire _ _ target => onPort p target.coport .waiting
  | .registerLocked args i target =>
    onPort p target.coport (.registering ⟨args.poller, i, target.events⟩)
  | .unregisterLocked args i target =>
    onPort p target.coport (.unregistering ⟨args.poller, i, target.events⟩)
  | .deliverLocked _ _ q status => onPort p q (.delivering status)
  | .release q status after => onPort p q (.storing status (followOf after))
  | .recvRead q _ => onPort p q .reading
  | .notifyTest q event _ => onPort p q (.announcing event)
  | .notifyLock q _ | .notifyPut q _ => onPort p q .committed
  | .notifyOpen q _ => onPort p q .opening
  | _ => .away

/-- One cocarrier and what goes on around it. -/
structure PortView where
  port : Coport
  role : Party → Role
  queued : Nat

/-- The events of port `p` in the notifiers' queues. -/
def queuedFor (s : Sys) (p : Nat) : Nat := ∑ n, pending (s.queue n) p

/-- The system as port `p` sees it. -/
def viewOf (p : Nat) (s : Sys) : PortView where
  port := s.port p
  role := fun x => role p (s.pc x)
  queued := queuedFor s p

/-! ### The steps of a view -/

/-- The status is one that marks a locked port. -/
def Taken (status : CoportStatus) : Prop := status = .coportBusy ∨ status = .coportPolling

/-- The locked section a thread enters, by the status it found. -/
inductive Enters : CoportStatus → Role → Prop
  | send (msg : Message) : Enters .coportOpen (.sending msg)
  | recvOpen (closing : Bool) : Enters .coportOpen (.receiving .coportOpen closing)
  | recvClosing : Enters .coportClosing (.receiving .coportClosing true)
  | close : Enters .coportOpen .closing
  | register (l : ListenEntry) : Enters .coportOpen (.registering l)
  | unregister (l : ListenEntry) : Enters .coportOpen (.unregistering l)
  | deliver (found : CoportStatus)
      (h : found = .coportDone ∨ found = .coportOpen ∨ found = .coportClosing) :
      Enters found (.delivering found)

/-- The locked sections of the requests. -/
inductive PortWorks (port : Coport) : Role → Role → Coport → Prop
  | sendRefused (msg : Message) (h : port.sendRefused) :
      PortWorks port (.sending msg) (.storing .coportOpen .done) port.refuseSend
  | sendAccepted (msg : Message) (h : ¬port.sendRefused) :
      PortWorks port (.sending msg) (.storing .coportDone (.notify copollIn)) (port.enqueue msg)
  | recvRefused (found : CoportStatus) (closing : Bool) (h : port.recvRefused) :
      PortWorks port (.receiving found closing) (.storing .coportOpen .done) port.refuseRecv
  | recvTaken (found : CoportStatus) (closing : Bool) (h : ¬port.recvRefused) :
      PortWorks port (.receiving found closing) (.storing found .read)
        (port.dequeue closing)
  | close : PortWorks port .closing (.storing .coportClosing .done) port.markClosed
  | register (l : ListenEntry) :
      PortWorks port (.registering l) (.storing .coportOpen .done) (port.addListener l)
  | unregister (l : ListenEntry) :
      PortWorks port (.unregistering l) (.storing .coportOpen .done) (port.removeListener l)

/-- The steps of a thread that leave the port as it is. -/
inductive PortMoves (port : Coport) : Role → Role → Prop
  | wait : PortMoves port .away .waiting
  | commit (event : CoportEventmask) (h : port.announces event) :
      PortMoves port (.announcing event) .committed
  | decline (event : CoportEventmask) (h : ¬port.announces event) :
      PortMoves port (.announcing event) .opening
  | leaveStatus (h : port.status ≠ .coportDone) : PortMoves port .opening .away

/-- Where a thread is after its releasing store. -/
def released : Follow → Role
  | .done         => .away
  | .read         => .reading
  | .notify event => .announcing event

/-- One step of thread `x` as the port sees it. -/
inductive PortStep (v : PortView) (x : Party) : PortView → Prop
  | move (r : Role) (h : PortMoves v.port (v.role x) r) :
      PortStep v x { v with role := Function.update v.role x r }
  | acquire (lock : CoportStatus) (r : Role) (hlock : Taken lock)
      (hx : v.role x = .away ∨ v.role x = .waiting) (h : Enters v.port.status r) :
      PortStep v x
        { v with port := v.port.setStatus lock, role := Function.update v.role x r }
  | work (r : Role) (port : Coport) (h : PortWorks v.port (v.role x) r port) :
      PortStep v x { v with port, role := Function.update v.role x r }
  | store (status : CoportStatus) (follow : Follow) (h : v.role x = .storing status follow) :
      PortStep v x { v with
        port := v.port.setStatus status, role := Function.update v.role x (released follow) }
  | read (index : Nat) (h : v.role x = .reading) :
      PortStep v x { v with
        port := v.port.markRecvd index
        role := Function.update v.role x (.announcing copollOut) }
  | openDone (h : v.role x = .opening) (hst : v.port.status = .coportDone) :
      PortStep v x { v with
        port := v.port.setStatus .coportOpen, role := Function.update v.role x .away }
  | put (h : v.role x = .committed) :
      PortStep v x { v with role := Function.update v.role x .away, queued := v.queued + 1 }
  -- `process_coport_event` returns at once when nobody listens. The event is gone.
  | skip (k : Nat) (hx : v.role x = .away) (hq : v.queued = k + 1) (hl : v.port.listeners = []) :
      PortStep v x { v with queued := k }
  | deliver (found : CoportStatus) (k : Nat) (h : v.role x = .delivering found)
      (hq : v.queued = k + 1) (hm : Meets v.port.event v.port.levent) :
      PortStep v x {
        port := v.port.deliver
        role := Function.update v.role x (.storing (v.port.deliverStatus found) .done)
        queued := k }

/-! ### Loop variables -/

/-- The values the loop variables can have. -/
def LoopVars : Pc → Prop
  | .recvAcquire _ status closing | .recvLocked _ status closing =>
    status = .coportOpen ∨ (status = .coportClosing ∧ closing = true)
  | .deliverAcquire _ _ _ status | .deliverLocked _ _ _ status =>
    status = .coportDone ∨ status = .coportOpen ∨ status = .coportClosing
  | _ => True

section LoopVars
variable {s s' : Sys} {x : Party} {c c' : Pc} {p : Nat}

theorem Moves.loopVars (h : Moves s x c c') : LoopVars c' := by
  cases h with
  | call t c r hc =>
    cases r with
    | corecv p => exact .inl rfl
    | _ => trivial
  | recvClosing | recvRetry | deliverNext | deliverRetry => simp_all [LoopVars]
  | _ => trivial

theorem Acquires.loopVars {found lock : CoportStatus} (h : Acquires p found lock c c')
    (hc : LoopVars c) : LoopVars c' := by
  cases h with
  | recv | deliver => exact hc
  | _ => trivial

theorem Works.loopVars {port port' : Coport} (h : Works port p c c' port') : LoopVars c' := by
  cases h <;> trivial

theorem loopVars_resume (after : After) : LoopVars (Sys.resume p after) := by
  cases after <;> trivial

theorem Locks.loopVars (h : Locks s x c c') : LoopVars c' := by
  cases h <;> trivial

theorem Unlocks.loopVars (h : Unlocks c c') : LoopVars c' := by
  cases h <;> trivial

/-- The loop variables of every thread. -/
def LoopVarsOk (s : Sys) : Prop := ∀ y, LoopVars (s.pc y)

theorem LoopVarsOk.keep (hok : LoopVarsOk s) (hpc : s'.pc = Function.update s.pc x c')
    (hc : LoopVars c') : LoopVarsOk s' := by
  intro y
  rw [hpc]
  by_cases hy : y = x
  · subst hy
    rwa [Function.update_self]
  · rw [Function.update_of_ne hy]
    exact hok y

theorem loopVars_effect (hok : LoopVarsOk s) (h : Effect s x s') : LoopVarsOk s' := by
  cases h with
  | stay | assertion => exact hok
  | move c h => exact hok.keep rfl h.loopVars
  | acquire p found lock c h hst => exact hok.keep rfl (h.loopVars (hok x))
  | work p c port h => exact hok.keep rfl h.loopVars
  | release p status after h => exact hok.keep rfl (loopVars_resume after)
  | lock c h hm => exact hok.keep rfl h.loopVars
  | unlock c h => exact hok.keep rfl h.loopVars
  | put p a q h hq =>
    unfold Sys.signal
    split <;> exact hok.keep rfl trivial
  | _ => exact hok.keep rfl trivial

theorem loopVars_reach {ok : Sys → Act → Prop} (h : Reach sysStep ok initSys s) : LoopVarsOk s := by
  refine h.invariant ?_ fun s a s' _ hok _ hs => loopVars_effect hok (sysStep_effect hs)
  intro y
  cases y <;> trivial

end LoopVars

/-! ### The system steps as the views do -/

@[simp] theorem onPort_self (p : Nat) (r : Role) : onPort p p r = r := if_pos rfl

theorem onPort_of_ne {p q : Nat} (h : q ≠ p) (r : Role) : onPort p q r = .away := if_neg h

/-- The program counters from which port `p` sees a role. -/
def ComesFrom (p : Nat) (c : Pc) : Role → Prop
  | .away => True
  | .waiting => ∃ args i target, target.coport = p ∧
      (c = .registerAcquire args i target ∨ c = .unregisterAcquire args i target)
  | .sending msg => ∃ msgLen, c = .sendLocked p msg msgLen
  | .receiving found closing => c = .recvLocked p found closing
  | .closing => c = .closeLocked p
  | .registering l => ∃ args i target, c = .registerLocked args i target ∧ target.coport = p ∧
      l = ⟨args.poller, i, target.events⟩
  | .unregistering l => ∃ args i target, c = .unregisterLocked args i target ∧
      target.coport = p ∧ l = ⟨args.poller, i, target.events⟩
  | .delivering found => ∃ i nEvents, c = .deliverLocked i nEvents p found
  | .storing status follow => ∃ after, c = .release p status after ∧ followOf after = follow
  | .reading => ∃ index, c = .recvRead p index
  | .announcing event => ∃ a, c = .notifyTest p event a
  | .committed => ∃ a, c = .notifyLock p a ∨ c = .notifyPut p a
  | .opening => ∃ a, c = .notifyOpen p a

theorem comesFrom_role (p : Nat) (c : Pc) : ComesFrom p c (role p c) := by
  -- A role on port `q` is `away` unless `q` is `p`.
  have hon : ∀ q r, (q = p → ComesFrom p c r) → ComesFrom p c (onPort p q r) := by
    intro q r h
    unfold onPort
    split
    · exact h ‹_›
    · trivial
  cases c with
  | sendLocked q msg msgLen => exact hon q _ (by rintro rfl; exact ⟨msgLen, rfl⟩)
  | recvLocked q status closing => exact hon q _ (by rintro rfl; rfl)
  | closeLocked q => exact hon q _ (by rintro rfl; rfl)
  | registerAcquire args i target =>
    exact hon _ _ fun h => ⟨args, i, target, h, .inl rfl⟩
  | unregisterAcquire args i target =>
    exact hon _ _ fun h => ⟨args, i, target, h, .inr rfl⟩
  | registerLocked args i target => exact hon _ _ fun h => ⟨args, i, target, rfl, h, rfl⟩
  | unregisterLocked args i target => exact hon _ _ fun h => ⟨args, i, target, rfl, h, rfl⟩
  | deliverLocked i nEvents q status => exact hon q _ (by rintro rfl; exact ⟨i, nEvents, rfl⟩)
  | release q status after => exact hon q _ (by rintro rfl; exact ⟨after, rfl, rfl⟩)
  | recvRead q index => exact hon q _ (by rintro rfl; exact ⟨index, rfl⟩)
  | notifyTest q event a => exact hon q _ (by rintro rfl; exact ⟨a, rfl⟩)
  | notifyLock q a => exact hon q _ (by rintro rfl; exact ⟨a, .inl rfl⟩)
  | notifyPut q a => exact hon q _ (by rintro rfl; exact ⟨a, .inr rfl⟩)
  | notifyOpen q a => exact hon q _ (by rintro rfl; exact ⟨a, rfl⟩)
  | _ => trivial

/-- Where a thread is, from the role port `p` sees. -/
theorem comesFrom_of_role {p : Nat} {c : Pc} {r : Role} (h : role p c = r) : ComesFrom p c r :=
  h ▸ comesFrom_role p c

section Refinement
variable {s s' : Sys} {x : Party} {c c' : Pc} {p q : Nat}

attribute [local simp] role

theorem Moves.role_step (h : Moves s x c c') (p : Nat) :
    role p c' = role p c ∨ PortMoves (s.port p) (role p c) (role p c') := by
  cases h with
  | call t c r hc =>
    -- Nothing of a request shows on a port before it takes the status.
    have hentry : role p (r.entry t) = .away := by cases r <;> rfl
    obtain rfl | ⟨a, rfl⟩ := hc <;> exact .inl hentry
  | commit x q event a h =>
    by_cases hq : q = p
    · subst hq
      simpa using (PortMoves.commit event h)
    · simp [onPort_of_ne hq]
  | decline x q event a h =>
    by_cases hq : q = p
    · subst hq
      simpa using (PortMoves.decline event h)
    · simp [onPort_of_ne hq]
  | leaveStatus x q a h =>
    by_cases hq : q = p
    · subst hq
      simpa using (PortMoves.leaveStatus h)
    · simp [onPort_of_ne hq]
  | registerNext x args i target ht =>
    by_cases hq : target.coport = p
    · simpa [hq] using PortMoves.wait
    · simp [onPort_of_ne hq]
  | unregisterNext x args i target ht hr =>
    by_cases hq : target.coport = p
    · simpa [hq] using PortMoves.wait
    · simp [onPort_of_ne hq]
  | _ => exact .inl rfl

theorem Acquires.role_enters {found lock : CoportStatus} (h : Acquires p found lock c c')
    (hvars : LoopVars c) :
    Taken lock ∧ (role p c = .away ∨ role p c = .waiting) ∧ Enters found (role p c') := by
  cases h with
  | send msg msgLen => exact ⟨.inl rfl, .inl rfl, by simpa using .send msg⟩
  | recv status closing =>
    -- The loop of `cocarrier_recv` expects `COPORT_OPEN`, or `COPORT_CLOSING` once it saw it.
    refine ⟨.inl rfl, .inl rfl, ?_⟩
    obtain rfl | ⟨rfl, rfl⟩ := hvars
    · simpa using .recvOpen closing
    · simpa using .recvClosing
  | close => exact ⟨.inl rfl, .inl rfl, by simpa using .close⟩
  | register args i target ht =>
    subst ht
    exact ⟨.inl rfl, .inr (by simp), by simpa using .register _⟩
  | unregister args i target ht =>
    subst ht
    exact ⟨.inl rfl, .inr (by simp), by simpa using .unregister _⟩
  | deliver i nEvents status =>
    exact ⟨.inr rfl, .inl rfl, by simpa using .deliver found hvars⟩

theorem Acquires.role_of_ne {found lock : CoportStatus} (h : Acquires q found lock c c')
    (hq : q ≠ p) : role p c' = role p c := by
  cases h with
  | register args i target ht | unregister args i target ht =>
    subst ht
    simp [onPort_of_ne hq]
  | _ => simp [onPort_of_ne hq]

theorem Works.role_works {port port' : Coport} (h : Works port p c c' port') :
    PortWorks port (role p c) (role p c') port' := by
  cases h with
  | sendRefused msg msgLen h => simpa using .sendRefused msg h
  | sendAccepted msg msgLen h => simpa using .sendAccepted msg h
  | recvRefused status closing h => simpa using .recvRefused status closing h
  | recvTaken status closing h => simpa using .recvTaken status closing h
  | close => simpa using .close
  | register args i target ht =>
    subst ht
    simpa using .register _
  | unregister args i target ht =>
    subst ht
    simpa using .unregister _

theorem Works.role_of_ne {port port' : Coport} (h : Works port q c c' port') (hq : q ≠ p) :
    role p c' = role p c := by
  cases h with
  | register args i target ht | unregister args i target ht =>
    subst ht
    simp [onPort_of_ne hq]
  | _ => simp [onPort_of_ne hq]

theorem role_resume (after : After) : role p (Sys.resume p after) = released (followOf after) := by
  cases after <;> simp [Sys.resume, followOf, released]

theorem role_resume_of_ne (after : After) (hq : q ≠ p) : role p (Sys.resume q after) = .away := by
  cases after <;> simp [Sys.resume, onPort_of_ne hq]

theorem Locks.role_eq (h : Locks s x c c') : role p c' = role p c := by
  cases h <;> rfl

theorem Unlocks.role_eq (h : Unlocks c c') : role p c' = role p c := by
  cases h <;> rfl

/-- The view after thread `x` has moved. -/
theorem viewOf_update (hpc : s'.pc = Function.update s.pc x c') :
    viewOf p s' = { port := s'.port p, queued := queuedFor s' p,
                    role := Function.update (viewOf p s).role x (role p c') } := by
  unfold viewOf
  congr 1
  funext y
  rw [hpc]
  by_cases hy : y = x
  · subst hy
    rw [Function.update_self, Function.update_self]
  · rw [Function.update_of_ne hy, Function.update_of_ne hy]

/-- A step that does not show on port `p`. -/
theorem viewOf_keep (hpc : s'.pc = Function.update s.pc x c') (hport : s'.port p = s.port p)
    (hq : queuedFor s' p = queuedFor s p) (hrole : role p c' = role p (s.pc x)) :
    viewOf p s' = viewOf p s := by
  rw [viewOf_update hpc, hport, hq, hrole]
  have hsame : role p (s.pc x) = (viewOf p s).role x := rfl
  rw [hsame, Function.update_eq_self]
  rfl

theorem queuedFor_update (n : Fin nCopollNotifiers) (q : CopollNotifier)
    (hq : s'.queue = Function.update s.queue n q) :
    queuedFor s' p + pending (s.queue n) p = queuedFor s p + pending q p := by
  unfold queuedFor
  -- Only the summand of `n` changes.
  have hsplit : ∀ f : Fin nCopollNotifiers → Nat, ∑ m, f m = f n + ∑ m ∈ Finset.univ.erase n, f m :=
    fun f => (Finset.add_sum_erase _ f (Finset.mem_univ n)).symm
  rw [hsplit, hsplit fun m => pending (s.queue m) p, hq, Function.update_self]
  have hrest : ∑ m ∈ Finset.univ.erase n, pending (Function.update s.queue n q m) p =
      ∑ m ∈ Finset.univ.erase n, pending (s.queue m) p := by
    refine Finset.sum_congr rfl fun m hm => ?_
    rw [Function.update_of_ne (Finset.ne_of_mem_erase hm)]
  omega

/-- Clearing an entry takes one event from the coport it holds. -/
theorem queuedFor_clear (n : Fin nCopollNotifiers) (i : Nat)
    (hq : s'.queue = Function.update s.queue n (clearAt (s.queue n) i)) :
    queuedFor s' p + (if entryAt (s.queue n) i = some p then 1 else 0) = queuedFor s p := by
  have hsum := queuedFor_update (p := p) n _ hq
  have hclear := pending_clear (q := s.queue n) (i := i) p
  omega

/-- A put adds an event for its coport. -/
theorem queuedFor_put {n : Fin nCopollNotifiers} {r : CopollNotifier} (hok : QueueOk s)
    (hput : (s.queue n).putCoportEvent q = some r) (hq : s'.queue = Function.update s.queue n r) :
    queuedFor s' p = queuedFor s p + if q = p then 1 else 0 := by
  have hsum := queuedFor_update (p := p) n _ hq
  have hcount := pending_put (hok.fits n) hput p
  omega

/-- A step on port `q`, seen from port `p`: it shows if the ports are the same. -/
theorem viewOf_on (q : Nat) {port : Coport} (hpc : s'.pc = Function.update s.pc x c')
    (hport : s'.port = Function.update s.port q port) (hqueue : s'.queue = s.queue)
    (hne : q ≠ p → role p c' = role p (s.pc x))
    (hstep : q = p → PortStep (viewOf p s) x
      { viewOf p s with port, role := Function.update (viewOf p s).role x (role p c') }) :
    viewOf p s' = viewOf p s ∨ PortStep (viewOf p s) x (viewOf p s') := by
  have hqueued : queuedFor s' p = queuedFor s p := by
    unfold queuedFor
    rw [hqueue]
  by_cases hqp : q = p
  · right
    rw [viewOf_update hpc, hqueued, hport, ← hqp, Function.update_self, hqp]
    exact hstep hqp
  · left
    refine viewOf_keep hpc ?_ hqueued (hne hqp)
    rw [hport, Function.update_of_ne (Ne.symm hqp)]

/-- A put, seen from port `p`. -/
theorem viewOf_put {n : Fin nCopollNotifiers} {a : Answer} {r : CopollNotifier} (hq : QueueOk s)
    (h : s.pc x = .notifyPut q a) (hput : (s.queue n).putCoportEvent q = some r)
    (hpc : s'.pc = Function.update s.pc x (.notifyUnlock q a)) (hport : s'.port = s.port)
    (hqueue : s'.queue = Function.update s.queue n r) :
    viewOf p s' = viewOf p s ∨ PortStep (viewOf p s) x (viewOf p s') := by
  have hcount := queuedFor_put (p := p) hq hput hqueue
  by_cases hqp : q = p
  · right
    subst hqp
    have hrole : (viewOf q s).role x = .committed := by simp [viewOf, h]
    rw [viewOf_update hpc, hport, hcount, if_pos rfl]
    exact .put hrole
  · left
    refine viewOf_keep hpc (by rw [hport]) (by rw [hcount, if_neg hqp]; rfl) ?_
    rw [h]
    simp [onPort_of_ne hqp]

/-- A notifier passes over an entry nobody listens for, seen from port `p`. -/
theorem viewOf_skip {n : Fin nCopollNotifiers} {i nEvents : Nat}
    (h : s.pc x = .deliver i nEvents)
    (he : ∀ p, entryAt (s.queue n) i = some p → (s.port p).listeners = [])
    (hpc : s'.pc = Function.update s.pc x (.deliver (i + 1) nEvents)) (hport : s'.port = s.port)
    (hqueue : s'.queue = Function.update s.queue n (clearAt (s.queue n) i)) :
    viewOf p s' = viewOf p s ∨ PortStep (viewOf p s) x (viewOf p s') := by
  have hcount := queuedFor_clear (p := p) n i hqueue
  have hrole : (viewOf p s).role x = .away := by simp [viewOf, h]
  -- A notifier between two ports is `away` from both.
  have hsame : role p (.deliver (i + 1) nEvents) = (viewOf p s).role x := by
    rw [hrole]
    rfl
  by_cases hep : entryAt (s.queue n) i = some p
  · right
    rw [if_pos hep] at hcount
    rw [viewOf_update hpc, hport, hsame, Function.update_eq_self]
    exact .skip _ hrole hcount.symm (he p hep)
  · left
    rw [if_neg hep] at hcount
    exact viewOf_keep hpc (by rw [hport]) hcount hsame

/-- A delivery, seen from port `p`. The entry delivered still counts before the step. -/
theorem viewOf_deliver {n : Fin nCopollNotifiers} {i nEvents : Nat} {status : CoportStatus}
    (h : s.pc x = .deliverLocked i nEvents q status) (he : entryAt (s.queue n) i = some q)
    (hm : Meets (s.port q).event (s.port q).levent)
    (hpc : s'.pc = Function.update s.pc x
      (.release q ((s.port q).deliverStatus status) (.deliver (i + 1) nEvents)))
    (hport : s'.port = Function.update s.port q (s.port q).deliver)
    (hqueue : s'.queue = Function.update s.queue n (clearAt (s.queue n) i)) :
    viewOf p s' = viewOf p s ∨ PortStep (viewOf p s) x (viewOf p s') := by
  have hcount := queuedFor_clear (p := p) n i hqueue
  rw [he] at hcount
  by_cases hqp : q = p
  · right
    subst hqp
    rw [if_pos rfl] at hcount
    have hrole : (viewOf q s).role x = .delivering status := by simp [viewOf, h]
    rw [viewOf_update hpc, hport, Function.update_self]
    have hstore : role q (.release q ((s.port q).deliverStatus status) (.deliver (i + 1) nEvents)) =
        .storing ((s.port q).deliverStatus status) .done := by simp [followOf]
    rw [hstore]
    exact .deliver _ _ hrole hcount.symm hm
  · left
    rw [if_neg (by simpa using hqp)] at hcount
    refine viewOf_keep hpc ?_ hcount ?_
    · rw [hport, Function.update_of_ne (Ne.symm hqp)]
    · rw [h]
      simp [onPort_of_ne hqp]

/-- Each step of the system is a step of every port's view, or does not show there. -/
theorem viewOf_effect (hq : QueueOk s) (hv : LoopVarsOk s) (h : Effect s x s') (p : Nat) :
    viewOf p s' = viewOf p s ∨ PortStep (viewOf p s) x (viewOf p s') := by
  -- One constructor of `Effect` for each constructor of `PortStep`. The steps on the copoll
  -- mutex and the condition variables do not show.
  cases h with
  | stay => exact .inl rfl
  | move c h =>
    obtain hsame | hmove := h.role_step p
    · exact .inl (viewOf_keep rfl rfl rfl hsame)
    · right
      have hupd : viewOf p (s.goto x c) = _ := viewOf_update rfl
      rw [hupd]
      exact .move _ hmove
  | acquire q found lock c h hst =>
    refine viewOf_on q rfl rfl rfl h.role_of_ne fun hqp => ?_
    subst hqp hst
    obtain ⟨hlock, hx, henter⟩ := h.role_enters (hv x)
    exact .acquire lock _ hlock hx henter
  | work q c port h =>
    refine viewOf_on q rfl rfl rfl h.role_of_ne fun hqp => ?_
    subst hqp
    exact .work _ _ h.role_works
  | release q status after h =>
    refine viewOf_on q rfl rfl rfl (fun hqp => ?_) fun hqp => ?_
    · rw [role_resume_of_ne after hqp, h]
      exact (onPort_of_ne hqp _).symm
    · subst hqp
      have hrole : (viewOf q s).role x = .storing status (followOf after) := by
        simp [viewOf, h]
      rw [role_resume]
      exact .store _ _ hrole
  | read q index h =>
    refine viewOf_on q rfl rfl rfl (fun hqp => ?_) fun hqp => ?_
    · simp [h, onPort_of_ne hqp]
    · subst hqp
      have hrole : (viewOf q s).role x = .reading := by simp [viewOf, h]
      rw [role, onPort_self]
      exact .read index hrole
  | openDone q a h hst =>
    refine viewOf_on q rfl rfl rfl (fun hqp => ?_) fun hqp => ?_
    · simp [h, onPort_of_ne hqp]
    · subst hqp
      have hrole : (viewOf q s).role x = .opening := by simp [viewOf, h]
      exact .openDone hrole hst
  | lock c h hm => exact .inl (viewOf_keep rfl rfl rfl h.role_eq)
  | unlock c h => exact .inl (viewOf_keep rfl rfl rfl h.role_eq)
  | freshListeners args i rs h => exact .inl (viewOf_keep rfl rfl rfl (by rw [h]; rfl))
  | put q a r h hput => exact viewOf_put hq h hput (by simp) (by simp) (by simp)
  | skip n i nEvents hx h hi he => exact viewOf_skip h he rfl rfl rfl
  | deliver n i nEvents q status hx h hm =>
    -- The entry the loop is at still holds the coport it works on.
    subst hx
    have hloop := hq.loop n
    rw [h] at hloop
    exact viewOf_deliver h hloop.2.2 hm rfl rfl rfl
  | wakeNotifier n hx h => exact .inl (viewOf_keep rfl rfl rfl (by rw [h]; rfl))
  | assertion a h => exact .inl rfl

/-- The invariant rule for one port. An invariant of its view that holds at the start and
that every step of the view keeps, where `may` can be assumed of the step, holds in every
state reached. -/
theorem view_invariant_step {ok : Sys → Act → Prop} {inv : PortView → Prop}
    (may : PortView → Party → PortView → Prop) (p : Nat) (hinit : inv (viewOf p initSys))
    (hmay : ∀ s a s', Reach sysStep ok initSys s → ok s a → sysStep s a = some s' →
      may (viewOf p s) a.party (viewOf p s'))
    (hstep : ∀ v x v', inv v → may v x v' → PortStep v x v' → inv v')
    (h : Reach sysStep ok initSys s) : inv (viewOf p s) := by
  induction h with
  | init => exact hinit
  | next a h hok hs ih =>
    obtain hsame | hview := viewOf_effect (queueOk_reach h) (loopVars_reach h) (sysStep_effect hs) p
    · rw [hsame]
      exact ih
    · exact hstep _ _ _ ih (hmay _ a _ h hok hs) hview

/-- The same, where what can be assumed does not depend on where the step leads. -/
theorem view_invariant {ok : Sys → Act → Prop} {inv : PortView → Prop}
    (may : PortView → Party → Prop) (p : Nat) (hinit : inv (viewOf p initSys))
    (hmay : ∀ s a, Reach sysStep ok initSys s → ok s a → may (viewOf p s) a.party)
    (hstep : ∀ v x v', inv v → may v x → PortStep v x v' → inv v')
    (h : Reach sysStep ok initSys s) : inv (viewOf p s) :=
  view_invariant_step (fun v x _ => may v x) p hinit (fun s a _ hr hok _ => hmay s a hr hok) hstep h

/-- The view at the start. -/
theorem viewOf_init (p : Nat) :
    viewOf p initSys = { port := initCoport, role := fun _ => .away, queued := 0 } := by
  have hrole : ∀ x, role p (initSys.pc x) = .away := by
    intro x
    cases x <;> rfl
  have hqueued : queuedFor initSys p = 0 := by
    refine Finset.sum_eq_zero fun n _ => ?_
    simp [pending, initSys, initNotifiers, CopollNotifier.init, List.count_replicate]
  unfold viewOf
  rw [hqueued, funext hrole]
  rfl

end Refinement

end Comsg.Proofs.Ipcd
