import Comsg.Proofs.Ipcd.StatusLock

/-!
# `Comsg.Proofs.Ipcd.Listeners`: listener lists, `levent` and the pollers

* `covers_reach`: `levent` has every event that some registered listener waits for.
* `pollAt_reach`: a listener that a sleeping poller registered is in the list of its port, or
  a delivery has removed it and marked it as removed.

An entry of a listener list names the thread that registered it. Only that thread takes it
out again (`pollerOk_reach`), apart from a delivery, which marks what it takes.
-/

set_option autoImplicit false

namespace Comsg.Proofs.Ipcd

open Comsg.Lib
open Comsg.Ipcd

/-! ### `levent` -/

/-- `levent` has the events of every registered listener. -/
def Covers (v : PortView) : Prop :=
  ∀ l ∈ v.port.listeners, ∀ i, l.events.getLsbD i = true → v.port.levent.getLsbD i = true

/-- The same for a cocarrier alone. -/
def Covered (port : Coport) : Prop :=
  ∀ l ∈ port.listeners, ∀ i, l.events.getLsbD i = true → port.levent.getLsbD i = true

section Covers
variable {v v' : PortView} {port : Coport} {x : Party}

theorem matched_eq_false {l : ListenEntry} (h : port.matched l = false) :
    ¬Meets port.event l.events := by
  simpa [Coport.matched] using h

/-- The listeners that stay after a delivery have none of the events it clears. -/
theorem Covered.deliver (hc : Covered port) : Covered port.deliver := by
  intro l hl i hi
  obtain ⟨hl, hun⟩ := List.mem_filter.mp hl
  have hnot : ¬Meets port.event l.events := matched_eq_false (by simpa using hun)
  -- `levent` loses the bits of `event`, and the listener has none of them.
  have hev : port.event.getLsbD i = false := by
    by_contra hne
    exact hnot ((meets_iff _ _).mpr ⟨i, by simpa using hne, hi⟩)
  simp only [Coport.deliver, BitVec.getLsbD_and, BitVec.getLsbD_not, hc l hl i hi, hev,
    BitVec.lt_of_getLsbD hi, decide_true, Bool.not_false, Bool.and_self]

theorem Covered.addListener (hc : Covered port) (new : ListenEntry) :
    Covered (port.addListener new) := by
  intro l hl i hi
  obtain rfl | hl := List.mem_cons.mp hl
  · simp [Coport.addListener, hi]
  · simp [Coport.addListener, hc l hl i hi]

/-- `levent` does not lose anything when a listener leaves. -/
theorem Covered.removeListener (hc : Covered port) (old : ListenEntry) :
    Covered (port.removeListener old) :=
  fun l hl => hc l (List.mem_of_mem_erase hl)

theorem PortWorks.covers {port' : Coport} {r r' : Role} (h : PortWorks port r r' port')
    (hc : Covered port) : Covered port' := by
  cases h with
  | register new => exact hc.addListener new
  | unregister old => exact hc.removeListener old
  | _ => exact hc

theorem covers_step (hc : Covers v) (h : PortStep v x v') : Covers v' := by
  cases h with
  | work r port h => exact h.covers hc
  | deliver found k h hq hm => exact Covered.deliver hc
  | _ => exact hc

theorem covers_reach {ok : Sys → Act → Prop} {s : Sys} (h : Reach sysStep ok initSys s) (p : Nat) :
    Covers (viewOf p s) := by
  refine view_invariant (fun _ _ => True) p ?_ (fun _ _ _ _ => trivial) ?_ h
  · rw [viewOf_init]
    exact nofun
  · exact fun _ _ _ hc _ hstep => covers_step hc hstep

/-- A listener's event is one that `copoll_notify` announces. -/
theorem Covered.announces (hc : Covered port) {l : ListenEntry} (hl : l ∈ port.listeners)
    {b : CoportEventmask} (hb : Meets l.events b) : port.announces b := by
  obtain ⟨i, hli, hbi⟩ := (meets_iff _ _).mp hb
  exact ⟨List.ne_nil_of_mem hl, (meets_iff _ _).mpr ⟨i, hc l hl i hli, hbi⟩⟩

end Covers

/-! ### Whose listeners -/

/-- The poll a thread is in. -/
def pollOf : Pc → Option PollArgs
  | .inspect args _ _ | .pollLock args | .asleep args | .relock args | .pollFinish args => some args
  | .register args _ | .registerAcquire args _ _ | .registerLocked args _ _ => some args
  | .unregister args _ | .unregisterAcquire args _ _ | .unregisterLocked args _ _ => some args
  | .release _ _ (.register args _) | .release _ _ (.unregister args _) => some args
  | _ => none

/-- Every poll uses the listener records of its own thread. -/
def PollerOk (s : Sys) : Prop := ∀ x args, pollOf (s.pc x) = some args → x = .client args.poller

section Poller
variable {s s' : Sys} {x : Party} {c c' : Pc} {p : Nat}

theorem Moves.pollOf_eq (h : Moves s x c c') {args : PollArgs} (hc : pollOf c' = some args) :
    pollOf c = some args ∨ x = .client args.poller := by
  cases h with
  | call t c r hr =>
    -- A poll starts with the thread that calls it as its poller.
    right
    cases r with
    | slopoll coports timeout =>
      cases hc
      rfl
    | _ => cases hc
  | _ =>
    first
    | exact .inl hc
    | cases hc

theorem Acquires.pollOf_eq {found lock : CoportStatus} (h : Acquires p found lock c c') :
    pollOf c' = pollOf c := by
  cases h <;> rfl

theorem Works.pollOf_eq {port port' : Coport} (h : Works port p c c' port') :
    pollOf c' = pollOf c := by
  cases h <;> rfl

theorem pollOf_resume (status : CoportStatus) (after : After) :
    pollOf (Sys.resume p after) = pollOf (.release p status after) := by
  cases after <;> rfl

theorem Locks.pollOf_eq (h : Locks s x c c') : pollOf c' = pollOf c := by
  cases h <;> rfl

theorem Unlocks.pollOf_eq (h : Unlocks c c') : pollOf c' = pollOf c ∨ pollOf c' = none := by
  cases h with
  | sleep | finish => exact .inl rfl
  | _ => exact .inr rfl

theorem PollerOk.keep (hok : PollerOk s) (hpc : s'.pc = Function.update s.pc x c')
    (hc : ∀ args, pollOf c' = some args → x = .client args.poller) : PollerOk s' := by
  intro y args hy
  rw [hpc] at hy
  by_cases hyx : y = x
  · subst hyx
    rw [Function.update_self] at hy
    exact hc args hy
  · rw [Function.update_of_ne hyx] at hy
    exact hok y args hy

theorem pollerOk_effect (hok : PollerOk s) (h : Effect s x s') : PollerOk s' := by
  -- A step within a poll keeps its arguments.
  have hsame : ∀ {c}, pollOf c = pollOf (s.pc x) → ∀ args, pollOf c = some args →
      x = .client args.poller := fun hc args ha => hok x args (hc ▸ ha)
  cases h with
  | stay | assertion => exact hok
  | move c h => exact hok.keep rfl fun args ha => (h.pollOf_eq ha).elim (hok x args) id
  | acquire p found lock c h hst => exact hok.keep rfl (hsame h.pollOf_eq)
  | work p c port h => exact hok.keep rfl (hsame h.pollOf_eq)
  | release p status after h => exact hok.keep rfl (hsame (h ▸ pollOf_resume status after))
  | lock c h hm => exact hok.keep rfl (hsame h.pollOf_eq)
  | unlock c h =>
    refine hok.keep rfl fun args ha => ?_
    obtain hc | hc := h.pollOf_eq
    · exact hsame hc args ha
    · rw [hc] at ha
      cases ha
  | freshListeners args i rs h => exact hok.keep rfl (hsame (h ▸ rfl))
  | put p a q h hq =>
    unfold Sys.signal
    split <;> exact hok.keep rfl nofun
  | _ => exact hok.keep rfl nofun

theorem pollerOk_reach {ok : Sys → Act → Prop} (h : Reach sysStep ok initSys s) : PollerOk s := by
  refine h.invariant ?_ fun s a s' _ hok _ hs => pollerOk_effect hok (sysStep_effect hs)
  intro x args hx
  cases x <;> cases hx

end Poller

/-! ### Registered listeners -/

/-- The first `k` listeners of a poll are in the lists of their ports, or marked as removed. -/
def Registered (s : Sys) (args : PollArgs) (k : Nat) : Prop :=
  ∀ i target, i < k → args.coports[i]? = some target →
    (s.listener args.poller i).removed = true ∨
    ⟨args.poller, i, target.events⟩ ∈ (s.port target.coport).listeners

/-- What the program counter of a poller says about its listeners. -/
def PollAt (s : Sys) : Pc → Prop
  | .register args k | .release _ _ (.register args k) => Registered s args k
  | .registerAcquire args k target | .registerLocked args k target =>
    Registered s args k ∧ args.coports[k]? = some target
  | .asleep args => Registered s args args.coports.length
  | _ => True

/-- The step keeps the listeners of thread `t`, or marks them as removed. -/
structure KeepsListeners (s s' : Sys) (t : Nat) : Prop where
  removed : ∀ i, (s.listener t i).removed = true → (s'.listener t i).removed = true
  entry : ∀ q l, l.poller = t → l ∈ (s.port q).listeners →
    l ∈ (s'.port q).listeners ∨ (s'.listener t l.index).removed = true

section Registered
variable {s s' : Sys} {x : Party} {c c' : Pc} {p t : Nat}

theorem Registered.mono {args : PollArgs} {k : Nat} (h : Registered s args k)
    (hk : KeepsListeners s s' args.poller) : Registered s' args k := by
  intro i target hi ht
  obtain hrem | hmem := h i target hi ht
  · exact .inl (hk.removed i hrem)
  · obtain hmem | hrem := hk.entry _ _ rfl hmem
    · exact .inr hmem
    · exact .inl hrem

theorem PollAt.mono (h : PollAt s c) (hk : ∀ args, pollOf c = some args →
    KeepsListeners s s' args.poller) : PollAt s' c := by
  cases c with
  | register args k => exact Registered.mono h (hk args rfl)
  | registerAcquire args k target => exact ⟨h.1.mono (hk args rfl), h.2⟩
  | registerLocked args k target => exact ⟨h.1.mono (hk args rfl), h.2⟩
  | asleep args => exact Registered.mono h (hk args rfl)
  | release p status after =>
    cases after with
    | register args k => exact Registered.mono h (hk args rfl)
    | _ => trivial
  | _ => trivial

theorem KeepsListeners.of_eq (hp : ∀ q, (s'.port q).listeners = (s.port q).listeners)
    (hl : s'.listener = s.listener) : KeepsListeners s s' t :=
  ⟨fun _ h => hl ▸ h, fun q _ _ hmem => .inl (hp q ▸ hmem)⟩

/-- A step on port `q` alone that leaves the records alone. -/
theorem KeepsListeners.of_update {q : Nat} {port : Coport}
    (hp : s'.port = Function.update s.port q port) (hl : s'.listener = s.listener)
    (hmem : ∀ l, l.poller = t → l ∈ (s.port q).listeners → l ∈ port.listeners) :
    KeepsListeners s s' t := by
  refine ⟨fun i h => hl ▸ h, fun r l ht hr => .inl ?_⟩
  rw [hp]
  by_cases hrq : r = q
  · subst hrq
    rw [Function.update_self]
    exact hmem l ht hr
  · rwa [Function.update_of_ne hrq]

/-- A delivery marks the listeners it takes out. -/
theorem deliverTo_removed {listener : Nat → Nat → Listener} {port : Coport} {l : ListenEntry}
    (hl : l ∈ port.listeners) (hm : port.matched l = true) :
    (Sys.deliverTo listener port l.poller l.index).removed = true := by
  unfold Sys.deliverTo
  split
  next => rfl
  next hnone =>
    rw [List.find?_eq_none] at hnone
    exact absurd (by simp [hm]) (hnone l hl)

theorem KeepsListeners.of_deliver {q : Nat}
    (hp : s'.port = Function.update s.port q (s.port q).deliver)
    (hl : s'.listener = Sys.deliverTo s.listener (s.port q)) : KeepsListeners s s' t := by
  constructor
  · -- Nothing sets `removed` back.
    intro i hi
    rw [hl]
    unfold Sys.deliverTo
    split
    · rfl
    · exact hi
  · intro r l ht hr
    rw [hp, hl]
    by_cases hrq : r = q
    · subst hrq
      cases hm : (s.port r).matched l with
      | false =>
        left
        rw [Function.update_self]
        exact List.mem_filter.mpr ⟨hr, by simp [hm]⟩
      | true => exact .inr (ht ▸ deliverTo_removed hr hm)
    · left
      rwa [Function.update_of_ne hrq]

/-- The work of a request leaves the listeners of every other thread in the list. -/
theorem Works.mem_listeners {port port' : Coport} (h : Works port p c c' port')
    (hown : ∀ args, pollOf c = some args → args.poller ≠ t) {l : ListenEntry} (ht : l.poller = t)
    (hl : l ∈ port.listeners) : l ∈ port'.listeners := by
  cases h with
  | register args i target htarget => exact List.mem_cons_of_mem _ hl
  | unregister args i target htarget =>
    -- `remove_coport_event_listener` takes out a listener of its own poll.
    refine (List.mem_erase_of_ne ?_).mpr hl
    rintro rfl
    exact hown args rfl ht
  | _ => exact hl

/-- A step of another thread keeps the listeners of thread `t`. -/
theorem keepsListeners_effect (hok : PollerOk s) (h : Effect s x s') (hx : x ≠ .client t) :
    KeepsListeners s s' t := by
  have hown : ∀ args, pollOf (s.pc x) = some args → args.poller ≠ t := by
    rintro args ha rfl
    exact hx (hok x args ha)
  cases h with
  | acquire q found lock c h hst => exact .of_update rfl rfl fun l _ hl => hl
  | work q c port h => exact .of_update rfl rfl fun l ht hl => h.mem_listeners hown ht hl
  | release q status after h => exact .of_update rfl rfl fun l _ hl => hl
  | read q index h => exact .of_update rfl rfl fun l _ hl => hl
  | openDone q a h hst => exact .of_update rfl rfl fun l _ hl => hl
  | freshListeners args i rs h =>
    have hne : t ≠ args.poller := (hown args (h ▸ rfl)).symm
    refine ⟨fun i hi => ?_, fun q l _ hl => .inl hl⟩
    simpa [Function.update_of_ne hne] using hi
  | put q a r h hq => exact .of_eq (by simp) (by simp)
  | deliver n i nEvents q status hx' h hm => exact .of_deliver rfl rfl
  | _ => exact .of_eq (fun _ => rfl) rfl

/-! Where the thread that makes the step stands afterwards. -/

theorem Moves.pollAt (h : Moves s x c c') (hc : PollAt s c) : PollAt s c' := by
  cases h with
  | call t c r hr => cases r <;> trivial
  | registerNext x args i target ht => exact ⟨hc, ht⟩
  | _ => trivial

theorem Acquires.pollAt {found lock : CoportStatus} (h : Acquires p found lock c c')
    (hc : PollAt s c) : PollAt s c' := by
  cases h with
  | register args i target ht => exact hc
  | _ => trivial

theorem pollAt_resume {status : CoportStatus} {after : After}
    (hc : PollAt s (.release p status after)) : PollAt s (Sys.resume p after) := by
  cases after with
  | register args k => exact hc
  | _ => trivial

theorem Unlocks.pollAt (h : Unlocks c c') (hc : PollAt s c) : PollAt s c' := by
  cases h with
  | sleep args i hi =>
    -- The registration loop ends after the last coport.
    intro j target hj ht
    have hlen : args.coports.length ≤ i := List.getElem?_eq_none_iff.mp hi
    exact hc j target (by omega) ht
  | _ => trivial

theorem Locks.pollAt (h : Locks s x c c') : PollAt s c' := by
  cases h with
  | poll x args => exact fun i target hi => absurd hi (Nat.not_lt_zero i)
  | _ => trivial

/-- A registration adds its listener to those registered before. -/
theorem Works.pollAt {port : Coport} (h : Works (s.port p) p c c' port) (hc : PollAt s c)
    (hp : s'.port = Function.update s.port p port) (hl : s'.listener = s.listener) :
    PollAt s' c' := by
  cases h with
  | register args k target ht =>
    obtain ⟨hreg, htarget⟩ := hc
    have hkeep : KeepsListeners s s' args.poller :=
      .of_update hp hl fun l _ hmem => List.mem_cons_of_mem _ hmem
    intro i target' hi hi'
    obtain hlt | rfl : i < k ∨ i = k := by omega
    · exact hreg.mono hkeep i target' hlt hi'
    · -- The listener that is added now.
      rw [htarget] at hi'
      cases hi'
      right
      rw [hp, ht, Function.update_self]
      exact List.mem_cons_self
  | _ => trivial

/-- A step that leaves the lists and the records alone. -/
theorem pollAt_of_eq (hc : PollAt s c) (hp : ∀ q, (s'.port q).listeners = (s.port q).listeners)
    (hl : s'.listener = s.listener) : PollAt s' c :=
  hc.mono fun _ _ => .of_eq hp hl

theorem listeners_setStatus (q : Nat) (status : CoportStatus) (c : Pc) (r : Nat) :
    (((s.setStatus q status).goto x c).port r).listeners = (s.port r).listeners := by
  by_cases hr : r = q
  · subst hr
    simp [Coport.setStatus]
  · simp [Function.update_of_ne hr]

theorem pollAt_effect_self (h : Effect s x s') (hc : PollAt s (s.pc x)) : PollAt s' (s'.pc x) := by
  -- Only the constructors whose next program counter says something about listeners are named.
  cases h with
  | stay => exact hc
  | assertion a h => exact pollAt_of_eq hc (fun _ => rfl) rfl
  | move c h =>
    rw [Sys.goto_pc, Function.update_self]
    exact pollAt_of_eq (h.pollAt hc) (fun _ => rfl) rfl
  | acquire q found lock c h hst =>
    rw [Sys.goto_pc, Function.update_self]
    exact pollAt_of_eq (h.pollAt hc) (listeners_setStatus q lock c) rfl
  | work q c port h =>
    rw [Sys.goto_pc, Function.update_self]
    exact h.pollAt hc rfl rfl
  | release q status after h =>
    rw [Sys.goto_pc, Function.update_self]
    exact pollAt_of_eq (pollAt_resume (h ▸ hc)) (listeners_setStatus q status _) rfl
  | lock c h hm =>
    rw [Sys.goto_pc, Function.update_self]
    exact pollAt_of_eq h.pollAt (fun _ => rfl) rfl
  | unlock c h =>
    rw [Sys.goto_pc, Function.update_self]
    exact pollAt_of_eq (h.pollAt hc) (fun _ => rfl) rfl
  | _ =>
    rw [Sys.goto_pc, Function.update_self]
    trivial

theorem pollAt_effect (hown : PollerOk s) (hok : ∀ y, PollAt s (s.pc y)) (h : Effect s x s') :
    ∀ y, PollAt s' (s'.pc y) := by
  intro y
  by_cases hy : y = x
  · subst hy
    exact pollAt_effect_self h (hok y)
  · rw [effect_pc_of_ne h hy]
    -- `y` is the poller of its own poll, and the step is not its own.
    refine (hok y).mono fun args ha => keepsListeners_effect hown h ?_
    rw [← hown y args ha]
    exact Ne.symm hy

/-- The listeners of the pollers are where their program counters say. -/
def PollsOk (s : Sys) : Prop := ∀ y, PollAt s (s.pc y)

theorem pollAt_reach {ok : Sys → Act → Prop} (h : Reach sysStep ok initSys s) : PollsOk s := by
  refine h.invariant ?_ fun s a s' hr hok _ hs =>
    pollAt_effect (pollerOk_reach hr) hok (sysStep_effect hs)
  intro y
  cases y <;> trivial

end Registered

end Comsg.Proofs.Ipcd
