import Comsg.Ipcd.ListenerList
import Comsg.Proofs.Ipcd.Listeners

/-!
# `Comsg.Proofs.Ipcd.Levent`: `levent` against the listeners

A delivery clears every raised event from `levent`, and it leaves listeners in the list. They have
none of the events that it clears (`Covered.deliver`), whatever `event` is. So `levent` has the
events of every listener after any sequence of sections (`levent_covers`), and the test of
`copoll_notify` succeeds when a listener waits for the event.

`fromSections_reach` connects this with the whole of ipcd: what happens to a cocarrier there is
such a sequence.
-/

set_option autoImplicit false

namespace Comsg.Proofs.Ipcd

open Comsg.Lib
open Comsg.Ipcd

section Sections
variable {port port' : Coport}

/-- What a section does. -/
theorem listenStep_cases {act : ListenAct} (h : port.listenStep act = some port') :
    (∃ l, act = .register l ∧ port' = port.addListener l) ∨
    (∃ l, act = .unregister l ∧ port' = port.removeListener l) ∨
    (act = .deliver ∧ port' = port.deliver) ∨
    (act = .work port' ∧ port'.listeners = port.listeners ∧ port'.levent = port.levent) := by
  cases act with
  | register l => exact .inl ⟨l, rfl, (Option.some.inj h).symm⟩
  | unregister l => exact .inr (.inl ⟨l, rfl, (Option.some.inj h).symm⟩)
  | deliver =>
    simp only [Coport.listenStep] at h
    split at h
    · exact .inr (.inr (.inl ⟨rfl, (Option.some.inj h).symm⟩))
    · cases h
  | work q =>
    simp only [Coport.listenStep] at h
    split at h
    next hsame =>
      cases h
      exact .inr (.inr (.inr ⟨rfl, hsame⟩))
    next => cases h

theorem Covered.listenStep (hc : Covered port) {act : ListenAct}
    (h : port.listenStep act = some port') : Covered port' := by
  obtain ⟨l, -, rfl⟩ | ⟨l, -, rfl⟩ | ⟨-, rfl⟩ | ⟨-, hl, he⟩ := listenStep_cases h
  · exact hc.addListener l
  · exact hc.removeListener l
  · exact hc.deliver
  · intro l hmem i hi
    rw [he]
    exact hc l (hl ▸ hmem) i hi

theorem covered_reach (h : Reach Coport.listenStep anyAct initCoport port) : Covered port := by
  refine h.invariant ?_ fun _ _ _ _ hc _ hs => hc.listenStep hs
  intro l hl
  cases hl

/-- `levent` has every bit of the mask of every listener, and `copoll_notify` announces each event
that a listener waits for. -/
theorem levent_covers (h : Reach Coport.listenStep anyAct initCoport port) :
    ∀ l ∈ port.listeners, port.levent &&& l.events = l.events ∧
      ∀ event, Meets l.events event → port.announces event := by
  intro l hl
  have hc := covered_reach h
  refine ⟨?_, fun event hevent => hc.announces hl hevent⟩
  -- Bit by bit: a bit that the listener has is one of `levent`.
  refine BitVec.eq_of_getLsbD_eq fun i _ => ?_
  rw [BitVec.getLsbD_and]
  cases hi : l.events.getLsbD i with
  | false => rw [Bool.and_false]
  | true => rw [hc l hl i hi, Bool.and_true]

/-- Two listeners, and a delivery that one of them has not waited for. -/
def twoListeners : List ListenAct :=
  [ListenAct.register ⟨0, 0, copollIn⟩, ListenAct.register ⟨1, 0, copollOut ||| copollClosed⟩,
    ListenAct.deliver]

theorem levent_covers_two : ∃ port, runFrom Coport.listenStep initCoport twoListeners = some port ∧
    port.listeners = [⟨0, 0, copollIn⟩] ∧
    ∀ l ∈ port.listeners, port.levent &&& l.events = l.events ∧
      ∀ event, Meets l.events event → port.announces event := by
  obtain ⟨port, hport, hreach⟩ :=
    exists_reach_of_isSome Coport.listenStep twoListeners initCoport (by decide)
  exact ⟨port, hport, eq_of_map_runFrom Coport.listeners hport (by decide), levent_covers hreach⟩

end Sections

/-! ### The sections of ipcd -/

/-- The cocarrier of a view comes about by sections. -/
def FromSections (v : PortView) : Prop := Reach Coport.listenStep anyAct initCoport v.port

section Refinement
variable {v v' : PortView} {x : Party}

/-- What the handler of a request does under the lock is one section. -/
theorem PortWorks.listenStep {port port' : Coport} {r r' : Role} (h : PortWorks port r r' port') :
    ∃ act, port.listenStep act = some port' := by
  cases h with
  | register l => exact ⟨.register l, rfl⟩
  | unregister l => exact ⟨.unregister l, rfl⟩
  | _ => exact ⟨.work _, if_pos ⟨rfl, rfl⟩⟩

theorem PortStep.listenStep (h : PortStep v x v') :
    ∃ act, v.port.listenStep act = some v'.port := by
  cases h with
  | work r port h => exact h.listenStep
  | deliver found k h hq hm => exact ⟨.deliver, if_pos hm⟩
  | _ => exact ⟨.work _, if_pos ⟨rfl, rfl⟩⟩

/-- So does every cocarrier of ipcd. -/
theorem fromSections_reach {ok : Sys → Act → Prop} {s : Sys} (h : Reach sysStep ok initSys s)
    (p : Nat) : FromSections (viewOf p s) := by
  refine view_invariant (fun _ _ => True) p ?_ (fun _ _ _ _ => trivial) ?_ h
  · rw [viewOf_init]
    exact .init
  · intro v x v' hr _ hstep
    obtain ⟨act, hact⟩ := hstep.listenStep
    exact .next act hr trivial hact

end Refinement

end Comsg.Proofs.Ipcd
