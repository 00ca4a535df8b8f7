import Comsg.Proofs.Ipcd.System

/-!
# `Comsg.Proofs.Ipcd.NotifierLoop`: the queues while the notifiers run

`QueueOk` ties a notifier's queue to where the notifier is in the loop of `copoll_deliver`.
The entries from `next_event` on are empty. A notifier in its loop has emptied every entry
before the one it is at, and the entry it delivers still holds the coport. It is kept by every
step because only the holder of the copoll mutex touches a queue (`queueOk_reach`). For the
same reason a port keeps a listener from the test of `process_coport_event` to its delivery
(`listenersOk_reach`).

`pending` counts the entries that hold a given coport. `pending_put` and `pending_clear` say
how the two operations on a queue change it.
-/

set_option autoImplicit false

namespace Comsg.Proofs.Ipcd

open Comsg.Lib
open Comsg.Ipcd

/-! ### Entries of one queue -/

/-- The coport in entry `j`, if there is one. -/
def entryAt (q : CopollNotifier) (j : Nat) : Option Nat := q.eventQueue[j]?.join

/-- The queue with entry `i` set to NULL. -/
def clearAt (q : CopollNotifier) (i : Nat) : CopollNotifier :=
  { q with eventQueue := q.eventQueue.set i none }

/-- The number of entries that hold the coport `p`. -/
def pending (q : CopollNotifier) (p : Nat) : Nat := q.eventQueue.count (some p)

/-- The queue has its size, and nothing is stored from `next_event` on. -/
structure QueueFits (q : CopollNotifier) : Prop where
  size : q.eventQueue.length = coportEventqueueLen
  fresh : ∀ j, q.nextEvent ≤ j → entryAt q j = none

section Entries
variable {q q' : CopollNotifier} {i p : Nat}

theorem entryAt_clearAt (j : Nat) :
    entryAt (clearAt q i) j = if j = i then none else entryAt q j := by
  unfold entryAt clearAt
  rw [List.getElem?_set]
  split
  next hij =>
    subst hij
    split <;> simp
  next hij =>
    rw [if_neg (Ne.symm hij)]

theorem putCoportEvent_eq (h : q.putCoportEvent p = some q') :
    q.nextEvent < coportEventqueueLen ∧
      q' = { eventQueue := q.eventQueue.set q.nextEvent (some p)
             nextEvent := q.nextEvent + 1 } := by
  unfold CopollNotifier.putCoportEvent at h
  split at h
  · exact ⟨‹_›, (Option.some.inj h).symm⟩
  · cases h

theorem QueueFits.clear (h : QueueFits q) : QueueFits (clearAt q i) where
  size := by simpa [clearAt] using h.size
  fresh := by
    intro j hj
    rw [entryAt_clearAt]
    split
    · rfl
    · exact h.fresh j hj

theorem QueueFits.put (h : QueueFits q) (hq : q.putCoportEvent p = some q') : QueueFits q' := by
  obtain ⟨_, rfl⟩ := putCoportEvent_eq hq
  refine ⟨by simpa using h.size, fun j hj => ?_⟩
  have hne : q.nextEvent ≠ j := by
    simp only at hj
    omega
  have hold := h.fresh j (by simp only at hj; omega)
  simpa [entryAt, List.getElem?_set, hne] using hold

/-- A put adds one entry for its coport. -/
theorem pending_put (h : QueueFits q) (hq : q.putCoportEvent p = some q') (r : Nat) :
    pending q' r = pending q r + if p = r then 1 else 0 := by
  obtain ⟨hlt, rfl⟩ := putCoportEvent_eq hq
  have hlen : q.nextEvent < q.eventQueue.length := by rw [h.size]; exact hlt
  -- The entry a put writes was empty, so no coport loses one.
  have hempty : q.eventQueue[q.nextEvent] = none := by
    have := h.fresh q.nextEvent le_rfl
    simpa [entryAt, List.getElem?_eq_getElem hlen] using this
  unfold pending
  rw [List.count_set hlen, hempty]
  simp

/-- Clearing an entry takes one away from the coport it holds. -/
theorem pending_clear (r : Nat) :
    pending (clearAt q i) r + (if entryAt q i = some r then 1 else 0) = pending q r := by
  unfold pending clearAt entryAt
  by_cases hlen : i < q.eventQueue.length
  · rw [List.count_set hlen, List.getElem?_eq_getElem hlen]
    have hpos : q.eventQueue[i] = some r → 0 < q.eventQueue.count (some r) := by
      intro he
      exact List.count_pos_iff.mpr (he ▸ List.getElem_mem hlen)
    by_cases he : q.eventQueue[i] = some r
    · have := hpos he
      simp [he]
      omega
    · simp [he]
  · -- Outside the array there is nothing to clear.
    have hset : q.eventQueue.set i none = q.eventQueue := List.set_eq_of_length_le (by omega)
    have hno : q.eventQueue[i]? = none := List.getElem?_eq_none (by omega)
    simp [hset, hno]

/-- A coport that is pending is in some entry below `next_event`. -/
theorem exists_entry_of_pending (h : QueueFits q) (hp : 0 < pending q p) :
    ∃ j, j < q.nextEvent ∧ entryAt q j = some p := by
  obtain ⟨j, hj, he⟩ := List.getElem_of_mem (List.count_pos_iff.mp hp)
  have hentry : entryAt q j = some p := by simp [entryAt, List.getElem?_eq_getElem hj, he]
  refine ⟨j, ?_, hentry⟩
  by_contra hge
  rw [h.fresh j (by omega)] at hentry
  cases hentry

end Entries

/-! ### A notifier in its loop -/

/-- What the program counter of a notifier says about its queue. -/
def LoopAt (q : CopollNotifier) : Pc → Prop
  | .deliver i nEvents => nEvents = q.nextEvent ∧ ∀ j < i, entryAt q j = none
  | .deliverAcquire i nEvents p _ | .deliverLocked i nEvents p _ =>
    nEvents = q.nextEvent ∧ (∀ j < i, entryAt q j = none) ∧ entryAt q i = some p
  | .release _ _ after =>
    match after with
    | .deliver i nEvents => nEvents = q.nextEvent ∧ ∀ j < i, entryAt q j = none
    | _ => True
  | _ => True

/-- The queues fit, and the notifiers' loops fit the queues. -/
structure QueueOk (s : Sys) : Prop where
  fits : ∀ n, QueueFits (s.queue n)
  loop : ∀ n, LoopAt (s.queue n) (s.pc (.notifier n))

section Loop
variable {s s' : Sys} {x : Party} {c c' : Pc} {p : Nat} {n : Fin nCopollNotifiers}

/-- Outside the sections of the copoll mutex nothing is said. -/
theorem loopAt_of_not_usesMutex {q : CopollNotifier} (h : usesMutex c = false) : LoopAt q c := by
  cases c with
  | deliver | deliverAcquire | deliverLocked => cases h
  | release p status after =>
    cases after with
    | deliver => cases h
    | _ => trivial
  | _ => trivial

theorem Moves.loopAt (h : Moves s x c c') (hx : x = .notifier n) (hc : LoopAt (s.queue n) c) :
    LoopAt (s.queue n) c' := by
  cases h with
  | call t c r hr => cases hx
  | deliverNext m i nEvents p hi he hl =>
    cases hx
    exact ⟨hc.1, hc.2, he⟩
  | deliverRetry x i nEvents p status status' hst => exact hc
  | _ => trivial

theorem Acquires.loopAt {found lock : CoportStatus} {q : CopollNotifier}
    (h : Acquires p found lock c c') (hc : LoopAt q c) : LoopAt q c' := by
  cases h with
  | deliver i nEvents => exact hc
  | _ => trivial

theorem Works.loopAt {port port' : Coport} {q : CopollNotifier} (h : Works port p c c' port') :
    LoopAt q c' := by
  cases h <;> trivial

theorem Locks.loopAt (h : Locks s x c c') (hx : x = .notifier n) : LoopAt (s.queue n) c' := by
  cases h with
  | notifier m =>
    cases hx
    exact ⟨rfl, fun j hj => absurd hj (Nat.not_lt_zero j)⟩
  | _ => trivial

theorem loopAt_resume {q : CopollNotifier} {status : CoportStatus} {after : After}
    (hc : LoopAt q (.release p status after)) : LoopAt q (Sys.resume p after) := by
  cases after with
  | deliver i nEvents => exact hc
  | _ => trivial

/-- A step of `x` that leaves the queues alone. -/
theorem QueueOk.keep (hok : QueueOk s) (hq : s'.queue = s.queue)
    (hpc : s'.pc = Function.update s.pc x c')
    (hc : ∀ n, x = .notifier n → LoopAt (s.queue n) c') : QueueOk s' := by
  refine ⟨fun n => hq ▸ hok.fits n, fun n => ?_⟩
  rw [hq, hpc]
  by_cases hx : .notifier n = x
  · subst hx
    rw [Function.update_self]
    exact hc n rfl
  · rw [Function.update_of_ne hx]
    exact hok.loop n

/-- A step that writes one queue. -/
theorem QueueOk.fits_update (hok : QueueOk s) {q : CopollNotifier}
    (hq : s'.queue = Function.update s.queue n q) (hfits : QueueFits q) (m : Fin nCopollNotifiers) :
    QueueFits (s'.queue m) := by
  rw [hq]
  by_cases hm : m = n
  · subst hm
    rw [Function.update_self]
    exact hfits
  · rw [Function.update_of_ne hm]
    exact hok.fits m

/-- A put. The thread that puts has the mutex, so no notifier is in its loop. -/
theorem QueueOk.put (hok : QueueOk s) (hmx : MutexOk s) {q : CopollNotifier} {a : Answer}
    (h : s.pc x = .notifyPut p a) (hput : (s.queue n).putCoportEvent p = some q)
    (hq : s'.queue = Function.update s.queue n q)
    (hpc : s'.pc = Function.update s.pc x (.notifyUnlock p a)) : QueueOk s' := by
  constructor
  · exact hok.fits_update hq ((hok.fits n).put hput)
  · intro m
    rw [hpc]
    by_cases hx : .notifier m = x
    · subst hx
      rw [Function.update_self]
      trivial
    · rw [Function.update_of_ne hx]
      -- Another notifier in its loop would hold the mutex too.
      refine loopAt_of_not_usesMutex ?_
      by_contra huse
      exact hx (hmx.eq_of_uses (by simpa using huse) (h ▸ rfl))

/-- A notifier clears the entry it is at and goes on to the next one. -/
theorem QueueOk.clear (hok : QueueOk s) {i nEvents : Nat}
    (hq : s'.queue = Function.update s.queue n (clearAt (s.queue n) i))
    (hpc : s'.pc = Function.update s.pc (.notifier n) c')
    (hn : nEvents = (s.queue n).nextEvent) (hbefore : ∀ j < i, entryAt (s.queue n) j = none)
    (hc : ∀ q : CopollNotifier, (nEvents = q.nextEvent ∧ ∀ j < i + 1, entryAt q j = none) →
      LoopAt q c') : QueueOk s' := by
  constructor
  · exact hok.fits_update hq (hok.fits n).clear
  · intro m
    rw [hq, hpc]
    by_cases hm : m = n
    · subst hm
      rw [Function.update_self, Function.update_self]
      -- Entry `i` is empty now, and so were the entries before it.
      refine hc _ ⟨hn, fun j hj => ?_⟩
      rw [entryAt_clearAt]
      split
      · rfl
      · exact hbefore j (by omega)
    · rw [Function.update_of_ne hm, Function.update_of_ne (by simpa using hm)]
      exact hok.loop m

theorem queueOk_effect (hmx : MutexOk s) (hok : QueueOk s) (h : Effect s x s') : QueueOk s' := by
  cases h with
  | stay => exact hok
  | move c h =>
    refine hok.keep rfl rfl fun n hn => ?_
    subst hn
    exact h.loopAt rfl (hok.loop n)
  | acquire p found lock c h hst =>
    refine hok.keep rfl rfl fun n hn => ?_
    subst hn
    exact h.loopAt (hok.loop n)
  | work p c port h => exact hok.keep rfl rfl fun n _ => h.loopAt
  | release p status after h =>
    refine hok.keep rfl rfl fun n hn => ?_
    subst hn
    exact loopAt_resume (h ▸ hok.loop n)
  | read p index h => exact hok.keep rfl rfl fun n _ => trivial
  | openDone p a h hst => exact hok.keep rfl rfl fun n _ => trivial
  | lock c h hm => exact hok.keep rfl rfl fun n hn => h.loopAt hn
  | unlock c h => exact hok.keep rfl rfl fun n _ => loopAt_of_not_usesMutex h.usesMutex_eq.2
  | freshListeners args i rs h => exact hok.keep rfl rfl fun n _ => trivial
  | put p a q h hq => exact hok.put hmx h hq (by simp) (by simp)
  | skip n i nEvents hx h hi he =>
    -- The entry is NULL or its port has no listeners; it is cleared either way.
    subst hx
    have hloop := hok.loop n
    rw [h] at hloop
    exact hok.clear rfl rfl hloop.1 hloop.2 fun q hq => hq
  | deliver n i nEvents p status hx h hm =>
    subst hx
    have hloop := hok.loop n
    rw [h] at hloop
    exact hok.clear rfl rfl hloop.1 hloop.2.1 fun q hq => hq
  | wakeNotifier n hx h => exact hok.keep rfl rfl fun n _ => trivial
  | assertion a h => exact ⟨hok.fits, hok.loop⟩

theorem queueOk_init : QueueOk initSys := by
  refine ⟨fun n => ⟨rfl, fun j _ => ?_⟩, fun n => trivial⟩
  unfold entryAt initSys initNotifiers CopollNotifier.init
  simp only [List.getElem?_replicate]
  split <;> rfl

/-- The queues fit the notifiers' loops, in every state of every run. -/
theorem queueOk_reach {ok : Sys → Act → Prop} (h : Reach sysStep ok initSys s) : QueueOk s :=
  h.invariant queueOk_init fun _ _ _ hr hok _ hs =>
    queueOk_effect (mutexOk_reach hr) hok (sysStep_effect hs)

end Loop

/-! ### Ports in delivery -/

/-- The port that a notifier is going to deliver. -/
def delivers : Pc → Option Nat
  | .deliverAcquire _ _ p _ | .deliverLocked _ _ p _ => some p
  | _ => none

/-- A port that is going to be delivered has a listener. -/
def ListenersOk (s : Sys) : Prop := ∀ x p, delivers (s.pc x) = some p → (s.port p).listeners ≠ []

section Delivers
variable {s s' : Sys} {x : Party} {c c' : Pc} {p q : Nat}

theorem usesMutex_of_delivers (h : delivers c = some p) : usesMutex c = true := by
  cases c with
  | deliverAcquire | deliverLocked => rfl
  | _ => cases h

theorem Moves.delivers_or (h : Moves s x c c') (hc : delivers c' = some p) :
    delivers c = some p ∨ (s.port p).listeners ≠ [] := by
  cases h with
  | call t c r hr => cases r <;> cases hc
  | deliverNext n i nEvents q hi he hl =>
    cases hc
    exact .inr hl
  | deliverRetry x i nEvents q status status' hst => exact .inl hc
  | _ => cases hc

theorem Acquires.delivers_eq {found lock : CoportStatus} (h : Acquires p found lock c c') :
    delivers c' = delivers c := by
  cases h <;> rfl

theorem Works.delivers_eq {port port' : Coport} (h : Works port p c c' port') :
    delivers c' = none := by
  cases h <;> rfl

theorem delivers_resume (after : After) : delivers (Sys.resume p after) = none := by
  cases after <;> rfl

theorem Locks.delivers_eq (h : Locks s x c c') : delivers c' = none := by
  cases h <;> rfl

theorem Unlocks.delivers_eq (h : Unlocks c c') : delivers c' = none := by
  cases h <;> rfl

/-- The work of a request without the mutex takes no listener out. -/
theorem Works.listeners_ne {port port' : Coport} (h : Works port p c c' port')
    (huse : usesMutex c = false) (hl : port.listeners ≠ []) : port'.listeners ≠ [] := by
  cases h with
  | register | unregister => cases huse
  | _ => exact hl

theorem listeners_update {port : Coport} (hport : s'.port = Function.update s.port q port)
    (hkeep : (s.port q).listeners ≠ [] → port.listeners ≠ []) (hl : (s.port p).listeners ≠ []) :
    (s'.port p).listeners ≠ [] := by
  rw [hport]
  by_cases hpq : p = q
  · subst hpq
    rw [Function.update_self]
    exact hkeep hl
  · rwa [Function.update_of_ne hpq]

/-- A step without the mutex leaves no port without listeners that had one. -/
theorem listeners_effect (h : Effect s x s') (huse : usesMutex (s.pc x) = false)
    (hl : (s.port p).listeners ≠ []) : (s'.port p).listeners ≠ [] := by
  cases h with
  | acquire q found lock c h hst => exact listeners_update rfl id hl
  | work q c port h => exact listeners_update rfl (h.listeners_ne huse) hl
  | release q status after h => exact listeners_update rfl id hl
  | read q index h => exact listeners_update rfl id hl
  | openDone q a h hst => exact listeners_update rfl id hl
  | put q a r h hq => simpa using hl
  | deliver n i nEvents q status hx h hm =>
    rw [h] at huse
    cases huse
  | _ => exact hl

/-- The thread that makes the step. Its port passed the test, or had a listener before. -/
theorem listenersOk_self (hok : ListenersOk s) (h : Effect s x s')
    (hp : delivers (s'.pc x) = some p) : (s'.port p).listeners ≠ [] := by
  cases h with
  | stay | assertion => exact hok x p hp
  | move c h =>
    rw [Sys.goto_pc, Function.update_self] at hp
    exact (h.delivers_or hp).elim (hok x p) id
  | acquire q found lock c h hst =>
    rw [Sys.goto_pc, Function.update_self, h.delivers_eq] at hp
    exact listeners_update rfl id (hok x p hp)
  | work q c port h => simp [h.delivers_eq] at hp
  | release q status after h => simp [delivers_resume] at hp
  | lock c h hm => simp [h.delivers_eq] at hp
  | unlock c h => simp [h.delivers_eq] at hp
  | _ => simp [delivers] at hp

theorem listenersOk_effect (hmx : MutexOk s) (hok : ListenersOk s) (h : Effect s x s') :
    ListenersOk s' := by
  intro y p hp
  by_cases hy : y = x
  · subst hy
    exact listenersOk_self hok h hp
  · -- `y` holds the mutex, so `x` does not.
    rw [effect_pc_of_ne h hy] at hp
    have huse : usesMutex (s.pc x) = false := by
      by_contra hx
      exact hy (hmx.eq_of_uses (usesMutex_of_delivers hp) (by simpa using hx))
    exact listeners_effect h huse (hok y p hp)

/-- A port that is going to be delivered has a listener, in every state of every run. -/
theorem listenersOk_reach {ok : Sys → Act → Prop} (h : Reach sysStep ok initSys s) :
    ListenersOk s := by
  refine h.invariant ?_ fun s a s' hr hok _ hs =>
    listenersOk_effect (mutexOk_reach hr) hok (sysStep_effect hs)
  intro y p hp
  cases y <;> cases hp

end Delivers

end Comsg.Proofs.Ipcd
