import Comsg.Proofs.Ipcd.PortView

/-!
# `Comsg.Proofs.Ipcd.StatusLock`: the status word is a lock

Five kinds of thread take a cocarrier by a compare-exchange on its status, from three
different values, and release it by a store of one of four. `copoll_notify` moves the word by
a compare-exchange of its own. `status_is_lock` says that this makes a lock: at most one
thread is between its acquisition and its release, the status is `COPORT_BUSY` or
`COPORT_POLLING` exactly while one is, and only that thread changes the fields the word
guards.

The proof is on the view of one port. `carried` is the status a holder found, or is about to
store. It is never one of the two values that mark a locked port, so a release always frees
the word.
-/

set_option autoImplicit false

namespace Comsg.Proofs.Ipcd

open Comsg.Lib
open Comsg.Ipcd

/-! ### The lock of a view -/

/-- The status a holder of the port found, or is about to store. -/
def carried : Role → Option CoportStatus
  | .sending _ | .closing | .registering _ | .unregistering _ => some .coportOpen
  | .receiving found _ | .delivering found => some found
  | .storing status _ => some status
  | _ => none

/-- At most one thread holds the port, and the status says whether one does. -/
structure LockOk (v : PortView) : Prop where
  exclusive : ∀ x y, carried (v.role x) ≠ none → carried (v.role y) ≠ none → x = y
  taken_iff : Taken v.port.status ↔ ∃ x, carried (v.role x) ≠ none
  carried_free : ∀ x status, carried (v.role x) = some status → ¬Taken status

section Lock
variable {v v' : PortView} {x : Party} {r r' : Role} {port port' : Coport}

theorem PortMoves.carried_eq (h : PortMoves port r r') : carried r = none ∧ carried r' = none := by
  cases h <;> exact ⟨rfl, rfl⟩

theorem Enters.carried_eq {found : CoportStatus} (h : Enters found r) :
    carried r = some found ∧ ¬Taken found := by
  cases h with
  | deliver found h =>
    refine ⟨rfl, ?_⟩
    obtain rfl | rfl | rfl := h <;> simp [Taken]
  | _ => exact ⟨rfl, by simp [Taken]⟩

/-- The work of a holder leaves the status alone, and what it is about to store is free. -/
theorem PortWorks.carried_eq (h : PortWorks port r r' port') :
    port'.status = port.status ∧ ∃ found status, carried r = some found ∧
      carried r' = some status ∧ (¬Taken found → ¬Taken status) := by
  cases h with
  | recvTaken found closing h => exact ⟨rfl, found, found, rfl, rfl, id⟩
  | recvRefused found closing h => exact ⟨rfl, found, .coportOpen, rfl, rfl, by simp [Taken]⟩
  | _ => exact ⟨rfl, .coportOpen, _, rfl, rfl, by simp [Taken]⟩

theorem carried_released (follow : Follow) : carried (released follow) = none := by
  cases follow <;> rfl

theorem not_taken_deliverStatus (port : Coport) (found : CoportStatus) :
    ¬Taken (port.deliverStatus found) := by
  unfold Coport.deliverStatus
  split <;> simp [Taken]

/-- A step of `x` that neither takes nor frees the port. -/
theorem LockOk.keep (hok : LockOk v) (hrole : v'.role = Function.update v.role x r)
    (hst : Taken v'.port.status ↔ Taken v.port.status)
    (hr : carried r ≠ none ↔ carried (v.role x) ≠ none)
    (hfree : ∀ status, carried r = some status → ¬Taken status) : LockOk v' := by
  -- The holders are the same before and after.
  have hsame : ∀ y, carried (v'.role y) ≠ none ↔ carried (v.role y) ≠ none := by
    intro y
    rw [hrole]
    by_cases hy : y = x
    · subst hy
      rw [Function.update_self]
      exact hr
    · rw [Function.update_of_ne hy]
  refine ⟨fun y z hy hz => hok.exclusive y z ((hsame y).mp hy) ((hsame z).mp hz), ?_, ?_⟩
  · rw [hst, hok.taken_iff]
    exact exists_congr fun y => (hsame y).symm
  · intro y status hy
    rw [hrole] at hy
    by_cases hyx : y = x
    · subst hyx
      rw [Function.update_self] at hy
      exact hfree status hy
    · rw [Function.update_of_ne hyx] at hy
      exact hok.carried_free y status hy

/-- A step of `x` that takes the free port. -/
theorem LockOk.take (hok : LockOk v) (hrole : v'.role = Function.update v.role x r)
    (hfree : ¬Taken v.port.status) (hst : Taken v'.port.status) {found : CoportStatus}
    (hr : carried r = some found) (hfound : ¬Taken found) : LockOk v' := by
  -- Nobody held the port, so `x` is the only holder now.
  have hnone : ∀ y, carried (v.role y) = none := by
    intro y
    by_contra hy
    exact hfree (hok.taken_iff.mpr ⟨y, hy⟩)
  have honly : ∀ y, carried (v'.role y) ≠ none → y = x := by
    intro y hy
    by_contra hyx
    rw [hrole, Function.update_of_ne hyx] at hy
    exact hy (hnone y)
  have hx : carried (v'.role x) = some found := by rw [hrole, Function.update_self, hr]
  refine ⟨fun y z hy hz => (honly y hy).trans (honly z hz).symm, ?_, ?_⟩
  · exact iff_of_true hst ⟨x, by simp [hx]⟩
  · intro y status hy
    have hyx := honly y (by simp [hy])
    subst hyx
    rw [hx] at hy
    exact Option.some.inj hy ▸ hfound

/-- A step of the holder `x` that frees the port. -/
theorem LockOk.free (hok : LockOk v) (hrole : v'.role = Function.update v.role x r)
    (hx : carried (v.role x) ≠ none) (hst : ¬Taken v'.port.status) (hr : carried r = none) :
    LockOk v' := by
  -- `x` was the only holder.
  have hnone : ∀ y, carried (v'.role y) = none := by
    intro y
    rw [hrole]
    by_cases hy : y = x
    · subst hy
      rw [Function.update_self, hr]
    · rw [Function.update_of_ne hy]
      by_contra hne
      exact hy (hok.exclusive y x hne hx)
  refine ⟨fun y z hy => absurd (hnone y) hy, iff_of_false hst ?_, ?_⟩
  · rintro ⟨y, hy⟩
    exact hy (hnone y)
  · intro y status hy
    rw [hnone y] at hy
    cases hy

theorem lockOk_step (hok : LockOk v) (h : PortStep v x v') : LockOk v' := by
  cases h with
  | move r h =>
    exact hok.keep rfl Iff.rfl (by simp [h.carried_eq.1, h.carried_eq.2]) (by simp [h.carried_eq.2])
  | acquire lock r hlock hx h =>
    exact hok.take rfl h.carried_eq.2 hlock h.carried_eq.1 h.carried_eq.2
  | work r port h =>
    obtain ⟨hst, found, status, hfound, hstatus, hfree⟩ := h.carried_eq
    have hnot := hfree (hok.carried_free x found hfound)
    refine hok.keep rfl (by rw [hst]) (by simp [hfound, hstatus]) fun st hst' => ?_
    rw [hstatus] at hst'
    exact Option.some.inj hst' ▸ hnot
  | store status follow h =>
    have hx : carried (v.role x) = some status := by rw [h]; rfl
    exact hok.free rfl (by simp [hx]) (hok.carried_free x status hx) (carried_released follow)
  | read index h => exact hok.keep rfl Iff.rfl (by simp [h, carried]) (by simp [carried])
  | openDone h hst =>
    -- `copoll_notify` moves the word without the lock, from one free value to another.
    refine hok.keep rfl (iff_of_false ?_ ?_) (by simp [h, carried]) (by simp [carried])
    · simp [Taken, Coport.setStatus]
    · simp [Taken, hst]
  | put h => exact hok.keep rfl Iff.rfl (by simp [h, carried]) (by simp [carried])
  | skip k hx hq hl => exact ⟨hok.exclusive, hok.taken_iff, hok.carried_free⟩
  | deliver found k h hq hm =>
    refine hok.keep rfl Iff.rfl (by simp [h, carried]) fun st hst => ?_
    exact Option.some.inj hst ▸ not_taken_deliverStatus _ _

theorem lockOk_init (p : Nat) : LockOk (viewOf p initSys) := by
  rw [viewOf_init]
  refine ⟨fun x y hx => absurd rfl hx, iff_of_false ?_ ?_, nofun⟩
  · simp [Taken, initCoport]
  · rintro ⟨x, hx⟩
    exact hx rfl

/-- The status word is a lock in the view of every port. -/
theorem lockOk_reach {ok : Sys → Act → Prop} {s : Sys} (h : Reach sysStep ok initSys s) (p : Nat) :
    LockOk (viewOf p s) := by
  refine view_invariant (fun _ _ => True) p (lockOk_init p) (fun _ _ _ _ => trivial) ?_ h
  exact fun _ _ _ hok _ hstep => lockOk_step hok hstep

end Lock

/-! ### The lock of the system -/

/-- The port a thread has taken and not released yet. -/
def inSection : Pc → Option Nat
  | .sendLocked p _ _ | .recvLocked p _ _ | .closeLocked p => some p
  | .registerLocked _ _ target | .unregisterLocked _ _ target => some target.coport
  | .deliverLocked _ _ p _ => some p
  | .release p _ _ => some p
  | _ => none

/-- The fields the status word guards are the same. -/
def SameGuarded (port port' : Coport) : Prop :=
  port'.length = port.length ∧ port'.start = port.start ∧ port'.end_ = port.end_ ∧
    port'.event = port.event ∧ port'.levent = port.levent ∧ port'.listeners = port.listeners

/-- The status words are locks in state `s`. -/
structure StatusIsLock (s : Sys) : Prop where
  /-- At most one thread is between its acquisition and its release. -/
  exclusive : ∀ p x y, inSection (s.pc x) = some p → inSection (s.pc y) = some p → x = y
  /-- The status is `COPORT_BUSY` or `COPORT_POLLING` exactly while one is. -/
  taken_iff : ∀ p, ((s.port p).status = .coportBusy ∨ (s.port p).status = .coportPolling) ↔
    ∃ x, inSection (s.pc x) = some p
  /-- Only that thread changes the guarded fields. -/
  guarded : ∀ a s', sysStep s a = some s' → ∀ p, ¬SameGuarded (s.port p) (s'.port p) →
    inSection (s.pc a.party) = some p

section System
variable {s s' : Sys} {x : Party} {c c' : Pc} {p q : Nat}

/-- The two descriptions of a holder agree. -/
theorem inSection_iff (p : Nat) (c : Pc) : inSection c = some p ↔ carried (role p c) ≠ none := by
  have hon : ∀ q r, carried r ≠ none → (some q = some p ↔ carried (onPort p q r) ≠ none) := by
    intro q r hr
    unfold onPort
    split
    next hq => simpa [hq] using hr
    next hq => simp [hq, carried]
  cases c with
  | sendLocked | recvLocked | closeLocked | registerLocked | unregisterLocked | deliverLocked
  | release => exact hon _ _ (by simp [carried])
  | registerAcquire args i target | unregisterAcquire args i target =>
    by_cases hq : target.coport = p <;> simp [inSection, role, onPort, hq, carried]
  | recvRead q | notifyTest q | notifyLock q | notifyPut q | notifyOpen q =>
    by_cases hq : q = p <;> simp [inSection, role, onPort, hq, carried]
  | _ => simp [inSection, role, carried]

theorem sameGuarded_refl (port : Coport) : SameGuarded port port :=
  ⟨rfl, rfl, rfl, rfl, rfl, rfl⟩

theorem sameGuarded_setStatus (port : Coport) (status : CoportStatus) :
    SameGuarded port (port.setStatus status) :=
  ⟨rfl, rfl, rfl, rfl, rfl, rfl⟩

theorem sameGuarded_markRecvd (port : Coport) (index : Nat) :
    SameGuarded port (port.markRecvd index) :=
  ⟨rfl, rfl, rfl, rfl, rfl, rfl⟩

/-- A step on port `q` alone, when `q` keeps its guarded fields or its holder made the step. -/
theorem sameGuarded_update {port : Coport} (hport : s'.port = Function.update s.port q port)
    (h : SameGuarded (s.port q) port ∨ inSection (s.pc x) = some q)
    (hne : ¬SameGuarded (s.port p) (s'.port p)) : inSection (s.pc x) = some p := by
  rw [hport] at hne
  by_cases hp : p = q
  · subst hp
    rw [Function.update_self] at hne
    exact h.resolve_left hne
  · rw [Function.update_of_ne hp] at hne
    exact absurd (sameGuarded_refl _) hne

theorem Works.inSection_eq {port port' : Coport} (h : Works port p c c' port') :
    inSection c = some p := by
  cases h with
  | register args i target ht | unregister args i target ht => simp [inSection, ht]
  | _ => rfl

/-- The guarded fields of a port change only in a step of its holder. -/
theorem guarded_effect (h : Effect s x s') (hne : ¬SameGuarded (s.port p) (s'.port p)) :
    inSection (s.pc x) = some p := by
  cases h with
  | acquire q found lock c h hst =>
    exact sameGuarded_update rfl (.inl (sameGuarded_setStatus _ _)) hne
  | work q c port h => exact sameGuarded_update rfl (.inr h.inSection_eq) hne
  | release q status after h => exact sameGuarded_update rfl (.inl (sameGuarded_setStatus _ _)) hne
  | read q index h => exact sameGuarded_update rfl (.inl (sameGuarded_markRecvd _ _)) hne
  | openDone q a h hst => exact sameGuarded_update rfl (.inl (sameGuarded_setStatus _ _)) hne
  | deliver n i nEvents q status hx h hm => exact sameGuarded_update rfl (.inr (by rw [h]; rfl)) hne
  | put q a r h hq =>
    simp only [Sys.goto_port, Sys.signal_port] at hne
    exact absurd (sameGuarded_refl _) hne
  | _ => exact absurd (sameGuarded_refl _) hne

/-- The status word of every cocarrier is a lock, in every state of every run. -/
theorem status_is_lock (h : Reach sysStep anyAct initSys s) : StatusIsLock s where
  exclusive := by
    intro p x y hx hy
    exact (lockOk_reach h p).exclusive x y ((inSection_iff p _).mp hx) ((inSection_iff p _).mp hy)
  taken_iff := by
    intro p
    refine (lockOk_reach h p).taken_iff.trans (exists_congr fun x => ?_)
    exact (inSection_iff p _).symm
  guarded := fun a s' hs p hne => guarded_effect (sysStep_effect hs) hne

end System

/-- A message of one byte. -/
def oneByte : Message := { buf := some ⟨4096, [1]⟩, attachments := none, nattachments := 0 }

/-- The arguments of a poll by client 0 for `COPOLL_IN` on port 0, without a timeout. -/
def pollIn : PollArgs := { poller := 0, coports := [⟨0, copollIn⟩], timeout := -1 }

/-- `k` steps of a thread. -/
def runs (x : Party) (k : Nat) : List Act := List.replicate k (.run x)

/-- Client 0 goes to sleep until an event of port 0. -/
def sleepFor (events : CoportEventmask) : List Act :=
  .call 0 (.slopoll [⟨0, events⟩] (-1)) :: runs (.client 0) 8

/-- The notifier of port 0. -/
def notifier0 : Party := .notifier (getCoportNotifierIndex 0)

/-- A send that has taken port 0. -/
def sendRun : List Act := [.call 0 (.cosend 0 oneByte 1), .run (.client 0)]

/-- The sender of `sendRun` holds the port. -/
theorem status_is_lock_send :
    ∃ s, Reach sysStep anyAct initSys s ∧ inSection (s.pc (.client 0)) = some 0 ∧ StatusIsLock s :=
  ⟨_, reach_of_runFrom sendRun initSys _ rfl, rfl,
    status_is_lock (reach_of_runFrom sendRun initSys _ rfl)⟩

end Comsg.Proofs.Ipcd
