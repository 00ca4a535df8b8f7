import Comsg.Proofs.Ipcd.PortView

/-!
# `Comsg.Proofs.Ipcd.Notifications`: notifications on their way

A thread that has changed the event mask of a port owes a `copoll_notify`. `announcement` is
the event it is going to announce. In the queueing branch of `copoll_notify` the thread is
committed, and after its put the port is in a notifier's queue. From the test to the delivery
the notification is outstanding.
-/

set_option autoImplicit false

namespace Comsg.Proofs.Ipcd

open Comsg.Lib
open Comsg.Ipcd

/-- Some thread is in the queueing branch of `copoll_notify` for port `p`, before its put. -/
def CommittedFor (s : Sys) (p : Nat) : Prop :=
  ∃ x a, s.pc x = .notifyLock p a ∨ s.pc x = .notifyPut p a

/-- A notification for port `p` is on its way to the queue, or in it. -/
def OutstandingFor (s : Sys) (p : Nat) : Prop :=
  CommittedFor s p ∨ ∃ n, some p ∈ (s.queue n).eventQueue

/-! ### As one port sees it -/

/-- The event a thread is still to announce. -/
def announcement : Role → Option CoportEventmask
  | .announcing event => some event
  | .reading => some copollOut
  | .storing _ (.notify event) => some event
  | .storing _ .read => some copollOut
  | _ => none

/-- A notification for the port is on its way to the queue, or in it. -/
def Outstanding (v : PortView) : Prop := (∃ x, v.role x = .committed) ∨ 0 < v.queued

section Views
variable {v v' : PortView} {x : Party} {r r' : Role} {port port' : Coport}

/-- A thread in a locked section has nothing to announce yet. -/
theorem PortWorks.announcement_eq (h : PortWorks port r r' port') :
    announcement r = none ∧ r ≠ .committed := by
  cases h <;> exact ⟨rfl, nofun⟩

/-- Nor has a thread that has just entered one. -/
theorem Enters.announcement_eq {found : CoportStatus} (h : Enters found r) :
    announcement r = none ∧ r ≠ .committed := by
  cases h <;> exact ⟨rfl, nofun⟩

/-- The release keeps the event to announce. -/
theorem announcement_released (status : CoportStatus) (follow : Follow) :
    announcement (released follow) = announcement (.storing status follow) := by
  cases follow <;> rfl

theorem PortMoves.announcement_eq (h : PortMoves port r r') : announcement r' = none := by
  cases h <;> rfl

theorem PortWorks.not_committed (h : PortWorks port r r' port') : r' ≠ .committed := by
  cases h <;> nofun

theorem released_ne_committed (follow : Follow) : released follow ≠ .committed := by
  cases follow <;> simp [released]

/-- A notification stays outstanding while no committed thread moves. -/
theorem Outstanding.update (h : Outstanding v) (hrole : v'.role = Function.update v.role x r)
    (hx : v.role x ≠ .committed) (hq : v.queued ≤ v'.queued) : Outstanding v' := by
  obtain ⟨y, hy⟩ | hpos := h
  · have hyx : y ≠ x := by
      rintro rfl
      exact hx hy
    exact .inl ⟨y, by rwa [hrole, Function.update_of_ne hyx]⟩
  · exact .inr (by omega)

/-- A thread that does not commit makes no notification outstanding. -/
theorem Outstanding.of_update (h : Outstanding v') (hrole : v'.role = Function.update v.role x r)
    (hr : r ≠ .committed) (hq : v'.queued ≤ v.queued) : Outstanding v := by
  obtain ⟨y, hy⟩ | hpos := h
  · rw [hrole] at hy
    by_cases hyx : y = x
    · subst hyx
      rw [Function.update_self] at hy
      exact absurd hy hr
    · rw [Function.update_of_ne hyx] at hy
      exact .inl ⟨y, hy⟩
  · exact .inr (by omega)

end Views

/-! ### As the system has it -/

section System
variable {s : Sys} {p : Nat}

theorem committed_iff : (∃ x, (viewOf p s).role x = .committed) ↔ CommittedFor s p := by
  constructor
  · rintro ⟨x, hx⟩
    obtain ⟨a, hpc⟩ := comesFrom_of_role hx
    exact ⟨x, a, hpc⟩
  · rintro ⟨x, a, hpc | hpc⟩
    · exact ⟨x, by simp [viewOf, hpc, role]⟩
    · exact ⟨x, by simp [viewOf, hpc, role]⟩

theorem queuedFor_pos_iff : 0 < queuedFor s p ↔ ∃ n, some p ∈ (s.queue n).eventQueue := by
  unfold queuedFor pending
  rw [Finset.sum_pos_iff]
  simp [List.count_pos_iff]

theorem outstanding_iff : Outstanding (viewOf p s) ↔ OutstandingFor s p :=
  or_congr committed_iff queuedFor_pos_iff

/-- A port in the queue of a notifier has an outstanding notification. -/
theorem outstanding_of_entry {n : Fin nCopollNotifiers} {i : Nat}
    (he : entryAt (s.queue n) i = some p) : OutstandingFor s p :=
  .inr ⟨n, List.mem_of_getElem? (Option.join_eq_some_iff.mp he)⟩

end System

end Comsg.Proofs.Ipcd
