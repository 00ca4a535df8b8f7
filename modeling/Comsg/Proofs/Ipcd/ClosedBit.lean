import Comsg.Proofs.Ipcd.StatusLock

/-!
# `Comsg.Proofs.Ipcd.ClosedBit`: the event mask of a port while threads interleave

Facts about one port that need nothing but the lock. `Stands v status` says that the port has
this status, or that its holder found it or is about to store it. It is the status the port
has when one looks past the lock.

* `inBit_reach`: `COPOLL_IN` is set exactly while something is queued.
* `closedBit_reach`: a port whose status stands at `COPORT_CLOSING` or `COPORT_CLOSED` has
  `COPOLL_CLOSED` in its event mask.
* `closed_step`: `COPOLL_CLOSED` is never cleared.
-/

set_option autoImplicit false

namespace Comsg.Proofs.Ipcd

open Comsg.Lib
open Comsg.Ipcd

/-- The port has this status, or its holder carries it. -/
def Stands (v : PortView) (status : CoportStatus) : Prop :=
  v.port.status = status ∨ ∃ x, carried (v.role x) = some status

/-- The statuses a receive and a delivery take a port from. -/
def FoundOk : Role → Prop
  | .receiving found closing => found = .coportOpen ∨ (found = .coportClosing ∧ closing = true)
  | .delivering found => found = .coportDone ∨ found = .coportOpen ∨ found = .coportClosing
  | _ => True

/-- What every view satisfies: the status word is a lock, and the holders found a status they
may take. -/
structure Sound (v : PortView) : Prop where
  lock : LockOk v
  found : ∀ x, FoundOk (v.role x)

section Views
variable {v v' : PortView} {x : Party} {r r' : Role} {port port' : Coport}

theorem foundOk_role (p : Nat) {c : Pc} (h : LoopVars c) : FoundOk (role p c) := by
  have hon : ∀ q r, FoundOk r → FoundOk (onPort p q r) := by
    intro q r hr
    unfold onPort
    split
    · exact hr
    · trivial
  cases c with
  | recvLocked | deliverLocked => exact hon _ _ h
  | sendLocked | closeLocked | registerAcquire | unregisterAcquire | registerLocked
  | unregisterLocked | release | recvRead | notifyTest | notifyLock | notifyPut | notifyOpen =>
    exact hon _ _ trivial
  | _ => trivial

theorem sound_reach {ok : Sys → Act → Prop} {s : Sys} (h : Reach sysStep ok initSys s) (p : Nat) :
    Sound (viewOf p s) :=
  ⟨lockOk_reach h p, fun x => foundOk_role p (loopVars_reach h x)⟩

/-! ### The standing status -/

/-- Another thread's role, after `x` has taken the role `r`. -/
theorem carried_update {f : Party → Role} {y : Party} {status : CoportStatus}
    (h : carried (Function.update f x r y) = some status) :
    carried r = some status ∨ carried (f y) = some status := by
  by_cases hy : y = x
  · subst hy
    rw [Function.update_self] at h
    exact .inl h
  · rw [Function.update_of_ne hy] at h
    exact .inr h

/-- A status that stands after `x` took the role `r` is the port's, or the one `r` carries, or
it stood before. -/
theorem Stands.of_update {status : CoportStatus} (hrole : v'.role = Function.update v.role x r)
    (h : Stands v' status) :
    v'.port.status = status ∨ carried r = some status ∨ ∃ y, carried (v.role y) = some status := by
  obtain hst | ⟨y, hy⟩ := h
  · exact .inl hst
  · rw [hrole] at hy
    obtain hr | hold := carried_update hy
    · exact .inr (.inl hr)
    · exact .inr (.inr ⟨y, hold⟩)

/-- While `x` works under the lock, only what it carries stands. -/
theorem Sound.stands_of_work (hs : Sound v) {status : CoportStatus} (h : Stands v' status)
    (hfree : ¬Taken status) (hx : carried (v.role x) ≠ none)
    (hst : v'.port.status = v.port.status) (hrole : v'.role = Function.update v.role x r) :
    carried r = some status := by
  obtain hport | ⟨y, hy⟩ := h
  · -- The word itself has a locked value as long as `x` works.
    rw [hst] at hport
    exact absurd (hs.lock.taken_iff.mpr ⟨x, hx⟩) (hport ▸ hfree)
  · rw [hrole] at hy
    by_cases hyx : y = x
    · subst hyx
      rwa [Function.update_self] at hy
    · rw [Function.update_of_ne hyx] at hy
      exact absurd (hs.lock.exclusive y x (by simp [hy]) hx) hyx

/-- The step of `x` changes no guarded field, and no status comes to stand but the
`COPORT_OPEN` that `copoll_notify` puts in place of `COPORT_DONE`. -/
structure Quiet (v v' : PortView) : Prop where
  guarded : SameGuarded v.port v'.port
  stands : ∀ status, ¬Taken status → Stands v' status →
    Stands v status ∨ (status = .coportOpen ∧ v.port.status = .coportDone)

/-- A step is quiet, or it is the work of a request or of a delivery. -/
theorem PortStep.quiet_or_work (h : PortStep v x v') :
    Quiet v v' ∨
    (∃ r port, PortWorks v.port (v.role x) r port ∧
      v' = { v with port, role := Function.update v.role x r }) ∨
    (∃ found k, v.role x = .delivering found ∧ v' =
      { port := v.port.deliver, queued := k,
        role := Function.update v.role x (.storing (v.port.deliverStatus found) .done) }) := by
  cases h with
  | move r h =>
    refine .inl ⟨sameGuarded_refl _, fun status _ hs => .inl ?_⟩
    obtain hst | hr | hold := hs.of_update rfl
    · exact .inl hst
    · rw [h.carried_eq.2] at hr
      cases hr
    · exact .inr hold
  | acquire lock r hlock hx h =>
    refine .inl ⟨sameGuarded_setStatus _ _, fun status hfree hs => .inl ?_⟩
    obtain hst | hr | hold := hs.of_update rfl
    · -- The status left is what the holder carries from here on.
      have hlock' : lock = status := hst
      exact absurd (hlock' ▸ hlock) hfree
    · rw [h.carried_eq.1] at hr
      exact .inl (Option.some.inj hr)
    · exact .inr hold
  | work r port h => exact .inr (.inl ⟨r, port, h, rfl⟩)
  | store status follow h =>
    refine .inl ⟨sameGuarded_setStatus _ _, fun status' _ hs => .inl ?_⟩
    obtain hst | hr | hold := hs.of_update rfl
    · -- What is stored was carried before.
      exact .inr ⟨x, by rw [h, ← hst]; rfl⟩
    · rw [carried_released] at hr
      cases hr
    · exact .inr hold
  | read index h =>
    refine .inl ⟨sameGuarded_markRecvd _ _, fun status _ hs => .inl ?_⟩
    obtain hst | hr | hold := hs.of_update rfl
    · exact .inl hst
    · cases hr
    · exact .inr hold
  | openDone h hst =>
    refine .inl ⟨sameGuarded_setStatus _ _, fun status _ hs => ?_⟩
    obtain hopen | hr | hold := hs.of_update rfl
    · exact .inr ⟨hopen.symm, hst⟩
    · cases hr
    · exact .inl (.inr hold)
  | put h =>
    refine .inl ⟨sameGuarded_refl _, fun status _ hs => .inl ?_⟩
    obtain hst | hr | hold := hs.of_update rfl
    · exact .inl hst
    · cases hr
    · exact .inr hold
  | skip k hx hq hl => exact .inl ⟨sameGuarded_refl _, fun status _ hs => .inl hs⟩
  | deliver found k h hq hm => exact .inr (.inr ⟨found, k, h, rfl⟩)

/-! ### `COPOLL_IN` -/

/-- `COPOLL_IN` is set exactly while something is queued. -/
def InBit (v : PortView) : Prop := Meets v.port.event copollIn ↔ 0 < v.port.length

theorem PortWorks.inBit (h : PortWorks port r r' port')
    (hin : Meets port.event copollIn ↔ 0 < port.length) :
    Meets port'.event copollIn ↔ 0 < port'.length := by
  cases h with
  | sendRefused msg h => simpa [Coport.refuseSend] using hin
  | sendAccepted msg h => simp [Coport.enqueue]
  | recvRefused found closing h => simpa [Coport.refuseRecv] using hin
  | recvTaken found closing h =>
    -- The taken event keeps `COPOLL_IN` if it was set and something is left.
    have hq : 0 < port.length ∧ Meets port.event copollIn := by
      simpa [Coport.recvRefused, Nat.pos_iff_ne_zero] using h
    simp only [Coport.dequeue, takenEvent_in, hq.2, and_true, ne_eq]
    omega
  | close => simpa [Coport.markClosed] using hin
  | register l => exact hin
  | unregister l => exact hin

theorem inBit_step (hin : InBit v) (h : PortStep v x v') : InBit v' := by
  obtain hquiet | ⟨r, port, hwork, rfl⟩ | ⟨found, k, hx, rfl⟩ := h.quiet_or_work
  · obtain ⟨hlen, -, -, hevent, -⟩ := hquiet.guarded
    unfold InBit
    rw [hlen, hevent]
    exact hin
  · exact hwork.inBit hin
  · exact hin

theorem inBit_reach {ok : Sys → Act → Prop} {s : Sys} (h : Reach sysStep ok initSys s) (p : Nat) :
    InBit (viewOf p s) := by
  refine view_invariant (fun _ _ => True) p ?_ (fun _ _ _ _ => trivial) ?_ h
  · rw [viewOf_init]
    unfold InBit
    decide
  · exact fun _ _ _ hin _ hstep => inBit_step hin hstep

/-! ### `COPOLL_CLOSED` -/

theorem PortWorks.closed_mono (h : PortWorks port r r' port')
    (hc : Meets port.event copollClosed) : Meets port'.event copollClosed := by
  cases h with
  | close => simp [Coport.markClosed]
  | register | unregister => exact hc
  | _ =>
    simpa [Coport.refuseSend, Coport.enqueue, Coport.refuseRecv, Coport.dequeue] using hc

/-- `COPOLL_CLOSED` is never cleared. -/
theorem closed_step (hc : Meets v.port.event copollClosed) (h : PortStep v x v') :
    Meets v'.port.event copollClosed := by
  obtain hquiet | ⟨r, port, hwork, rfl⟩ | ⟨found, k, hx, rfl⟩ := h.quiet_or_work
  · obtain ⟨-, -, -, hevent, -⟩ := hquiet.guarded
    rw [hevent]
    exact hc
  · exact hwork.closed_mono hc
  · exact hc

/-- The port is closing or closed, when one looks past the lock. -/
def Closing (v : PortView) : Prop := Stands v .coportClosing ∨ Stands v .coportClosed

/-- What a request is about to store is `COPORT_CLOSING` only if it found that, or closes. -/
theorem PortWorks.closing_carried (h : PortWorks port r r' port')
    (hc : carried r' = some .coportClosing ∨ carried r' = some .coportClosed) :
    carried r = some .coportClosing ∨ carried r = some .coportClosed ∨ r = .closing := by
  cases h with
  | recvTaken found closing h =>
    obtain hc | hc := hc
    · exact .inl hc
    · exact .inr (.inl hc)
  | close => exact .inr (.inr rfl)
  | _ => simp [carried] at hc

/-- A port becomes closing only by the work of `coport_close`. -/
theorem closing_of_step (hs : Sound v) (h : PortStep v x v') (hc : Closing v') :
    Closing v ∨ v.role x = .closing := by
  obtain hquiet | ⟨r, port, hwork, rfl⟩ | ⟨found, k, hx, rfl⟩ := h.quiet_or_work
  · refine .inl (hc.imp (fun h => ?_) fun h => ?_)
    · simpa using hquiet.stands _ (by simp [Taken]) h
    · simpa using hquiet.stands _ (by simp [Taken]) h
  · obtain ⟨hst, found, status, hfound, hstatus, -⟩ := hwork.carried_eq
    have hx : carried (v.role x) ≠ none := by simp [hfound]
    have hc : carried r = some .coportClosing ∨ carried r = some .coportClosed :=
      hc.imp (fun h => hs.stands_of_work h (by simp [Taken]) hx hst rfl)
        fun h => hs.stands_of_work h (by simp [Taken]) hx hst rfl
    obtain hc | hc | hc := hwork.closing_carried hc
    · exact .inl (.inl (.inr ⟨x, hc⟩))
    · exact .inl (.inr (.inr ⟨x, hc⟩))
    · exact .inr hc
  · -- A delivery stores `COPORT_CLOSED` only where it found `COPORT_CLOSING`.
    have hcx : carried (v.role x) ≠ none := by simp [hx, carried]
    have hc : carried (.storing (v.port.deliverStatus found) .done) = some .coportClosing ∨
        carried (.storing (v.port.deliverStatus found) .done) = some .coportClosed := by
      obtain h | h := hc
      · exact .inl (hs.stands_of_work h (by simp [Taken]) hcx rfl rfl)
      · exact .inr (hs.stands_of_work h (by simp [Taken]) hcx rfl rfl)
    have hfound : found = .coportClosing := by
      by_contra hne
      simp [carried, Coport.deliverStatus, hne] at hc
    exact .inl (.inl (.inr ⟨x, by rw [hx, hfound]; rfl⟩))

/-- The step of a thread in the locked section of `coport_close` sets `COPOLL_CLOSED`. -/
theorem PortStep.closed_of_closing (h : PortStep v x v') (hx : v.role x = .closing) :
    Meets v'.port.event copollClosed := by
  cases h with
  | work r port h =>
    rw [hx] at h
    cases h
    simp [Coport.markClosed]
  | move r h =>
    rw [hx] at h
    cases h
  | acquire lock r hlock h => simp [hx] at h
  | _ => simp_all

/-- A closing or closed port has `COPOLL_CLOSED`. -/
def ClosedBit (v : PortView) : Prop := Closing v → Meets v.port.event copollClosed

theorem closedBit_step (hs : Sound v) (hb : ClosedBit v) (h : PortStep v x v') : ClosedBit v' := by
  intro hc
  obtain hold | hx := closing_of_step hs h hc
  · exact closed_step (hb hold) h
  · exact h.closed_of_closing hx

theorem closedBit_reach {ok : Sys → Act → Prop} {s : Sys} (h : Reach sysStep ok initSys s)
    (p : Nat) : ClosedBit (viewOf p s) := by
  refine view_invariant (fun v _ => Sound v) p ?_ (fun s a hr _ => sound_reach hr p) ?_ h
  · rw [viewOf_init]
    rintro ((h | ⟨x, hx⟩) | (h | ⟨x, hx⟩)) <;> cases h <;> cases hx
  · exact fun _ _ _ hb hs hstep => closedBit_step hs hb hstep

end Views

end Comsg.Proofs.Ipcd
