import Comsg.Proofs.Coeventd.Threads
import Comsg.Proofs.Coeventd.Records

/-!
# `Comsg.Proofs.Coeventd.Answers`: which requests are answered

A request runs alone, on an event whose lock nobody holds. Its steps are followed from one access
of shared data to the next one, up to the reply. The states in between are those of the requests
that are handled in one go: `openEvent`, `withRecord`, `enqueue` and `addFunc`.

`in_progress` is -1 once the callbacks of an event have been run. `allocate_procdeath_event`
takes this for free, and `lock_coevent` does not. So `ccb_install` on the event of a process that
has died spins for ever (`install_on_fired`), while `ccb_register` sets the event up again.
`answered_iff` says which requests are answered.
-/

set_option autoImplicit false

namespace Comsg.Proofs.Coeventd

open Comsg.Lib
open Comsg.Coeventd

/-- The thread gets to a reply by finitely many steps of its own. -/
def Completes (s : Daemon) (a : Action) (pc : Pc) : Prop :=
  ∃ s' reply, Alone Daemon.advance a (s, pc) (s', .replied reply)

section Alone
variable {s s' t : Daemon} {a : Action} {pc pc' : Pc} {p pid : Nat} {sec : Section}

theorem completes_replied (reply : Reply) : Completes s a (.replied reply) :=
  ⟨s, reply, .refl⟩

theorem advance_replied (reply : Reply) : s.advance a (.replied reply) = none := by
  unfold Daemon.advance
  split <;> rfl

/-- What a thread gets to on its way does not matter. -/
theorem completes_iff (h : Alone Daemon.advance a (s, pc) (s', pc')) :
    Completes s a pc ↔ Completes s' a pc' := by
  constructor
  · rintro ⟨t, reply, hrun⟩
    -- The run is deterministic: one of the two is the beginning of the other.
    rcases Alone.total h hrun with hrest | hback
    · exact ⟨t, reply, hrest⟩
    · cases Alone.eq_of_none (advance_replied reply) hback
      exact completes_replied reply
  · rintro ⟨t, reply, hrun⟩
    exact ⟨t, reply, h.trans hrun⟩

theorem not_completes_ended : ¬Completes s a .ended := by
  rintro ⟨t, reply, hrun⟩
  have hnone : s.advance a .ended = none := by
    unfold Daemon.advance
    split <;> rfl
  cases Alone.eq_of_none hnone hrun

/-- A step of a thread that works on the event of `p`. -/
theorem alone_step (h : s.fate = .serving) (hp : a.event = p)
    (hstep : s.threadStep a p pc = some (s', pc')) :
    Alone Daemon.advance a (s, pc) (s', pc') := by
  refine .step ?_ .refl
  show s.advance a pc = some (s', pc')
  rw [Daemon.advance, if_neg (by simp [h]), hp, hstep]

/-! ### The event -/

theorem procTable_setEvent (e : Coevent) : (s.setEvent p e).procTable p = e :=
  Function.update_self ..

theorem setEvent_setEvent (e e' : Coevent) : (s.setEvent p e).setEvent p e' = s.setEvent p e' := by
  simp [Daemon.setEvent]

/-- The event with its lock taken. -/
def lockedEvent (s : Daemon) (p : Nat) : Daemon :=
  s.setEvent p { s.procTable p with inProgress := 1 }

theorem procTable_lockedEvent :
    (lockedEvent s p).procTable p = { s.procTable p with inProgress := 1 } :=
  procTable_setEvent _

/-- The two exchanges of `allocate_procdeath_event`. The thread remembers which of them has
succeeded. -/
theorem alone_exchange (hserving : s.fate = .serving) (hp : a.event = p)
    (hfree : (s.procTable p).inProgress = 0 ∨ (s.procTable p).inProgress = -1) :
    Alone Daemon.advance a (s, .allocate)
      (lockedEvent s p, .setUp (decide ((s.procTable p).inProgress = -1))) := by
  rcases hfree with h | h
  · exact alone_step hserving hp (by simp [Daemon.threadStep, h, lockedEvent])
  · have hfail : Alone Daemon.advance a (s, .allocate) (s, .reallocate) :=
      alone_step hserving hp (by simp [Daemon.threadStep, h])
    exact hfail.trans (alone_step hserving hp (by simp [Daemon.threadStep, h, lockedEvent]))

/-- `allocate_procdeath_event` on an event that is not in progress. -/
theorem alone_allocate (hserving : s.fate = .serving) (hp : a.event = p)
    (hfree : (s.procTable p).inProgress = 0 ∨ (s.procTable p).inProgress = -1) :
    Alone Daemon.advance a (s, .allocate) (openEvent s p, Daemon.opened p a) := by
  refine (alone_exchange hserving hp hfree).trans ?_
  -- A new event, or one that was fired, is set up. Otherwise only its word changes.
  by_cases hset : (s.procTable p).cePid ≠ p ∨ (s.procTable p).inProgress = -1
  · let t : Daemon := { s.setEvent p ⟨p, 1, []⟩ with
      monitored := Function.update s.monitored p true }
    have hsetUp : Alone Daemon.advance a
        (lockedEvent s p, .setUp (decide ((s.procTable p).inProgress = -1))) (t, .publish) := by
      refine alone_step hserving hp ?_
      simp only [Daemon.threadStep, procTable_lockedEvent, decide_eq_true_eq]
      rw [if_pos hset, lockedEvent, setEvent_setEvent]
      rfl
    refine hsetUp.trans (alone_step hserving hp ?_)
    rw [openEvent, if_pos hset]
    simp [Daemon.threadStep, t, Daemon.setEvent]
  · have hsetUp : Alone Daemon.advance a
        (lockedEvent s p, .setUp (decide ((s.procTable p).inProgress = -1)))
        (lockedEvent s p, .publish) := by
      refine alone_step hserving hp ?_
      simp only [Daemon.threadStep, procTable_lockedEvent, decide_eq_true_eq]
      rw [if_neg hset]
    refine hsetUp.trans (alone_step hserving hp ?_)
    have hzero := hfree.resolve_right fun h => hset (.inr h)
    simp only [Daemon.threadStep, procTable_lockedEvent]
    rw [openEvent, if_neg hset, lockedEvent, setEvent_setEvent, setEvent_same hzero rfl]

/-! ### The critical sections -/

/-- A thread takes the lock, does its work and gives the lock up. -/
theorem alone_section (hserving : s.fate = .serving) (hp : a.event = p)
    (hfree : (s.procTable p).inProgress = 0)
    (hbody : (lockedEvent s p).critical a p sec = .ok t) (ht : t.fate = .serving)
    (hheld : (t.procTable p).inProgress = 1) :
    Alone Daemon.advance a (s, .lock sec)
      (t.setEvent p { t.procTable p with inProgress := 0 }, Daemon.leave sec) := by
  -- The four steps of a critical section: exchange, work, load, exchange.
  have hlock : Alone Daemon.advance a (s, .lock sec) (lockedEvent s p, .body sec) :=
    alone_step hserving hp (by simp [Daemon.threadStep, lock_eq hfree, lockedEvent])
  have hwork : Alone Daemon.advance a (lockedEvent s p, .body sec) (t, .unlock sec) :=
    alone_step hserving hp (by simp [Daemon.threadStep, hbody])
  have hload : Alone Daemon.advance a (t, .unlock sec) (t, .release sec 1) :=
    alone_step ht hp (by simp [Daemon.threadStep, hheld])
  have hrelease : Alone Daemon.advance a (t, .release sec 1)
      (t.setEvent p { t.procTable p with inProgress := 0 }, Daemon.leave sec) :=
    alone_step ht hp (by simp [Daemon.threadStep, hheld])
  exact ((hlock.trans hwork).trans hload).trans hrelease

/-- A thread that faults under the lock, or whose assertion fails. -/
theorem not_completes_section {stop : Stop} (hserving : s.fate = .serving) (hp : a.event = p)
    (hfree : (s.procTable p).inProgress = 0)
    (hbody : (lockedEvent s p).critical a p sec = .error stop) :
    ¬Completes s a (.lock sec) := by
  have hlock : Alone Daemon.advance a (s, .lock sec) (lockedEvent s p, .body sec) :=
    alone_step hserving hp (by simp [Daemon.threadStep, lock_eq hfree, lockedEvent])
  have hwork : Alone Daemon.advance a (lockedEvent s p, .body sec)
      ((lockedEvent s p).halt stop, .ended) :=
    alone_step hserving hp (by simp [Daemon.threadStep, hbody])
  rw [completes_iff (hlock.trans hwork)]
  exact not_completes_ended

/-- A thread does not get a lock that is not free, and tries again for ever. -/
theorem not_completes_spin (hserving : s.fate = .serving) (hp : a.event = p)
    (hbusy : (s.procTable p).inProgress ≠ 0) : ¬Completes s a (.lock sec) := by
  rintro ⟨t, reply, hrun⟩
  have hsame : s.advance a (.lock sec) = some (s, .lock sec) := by
    rw [Daemon.advance, if_neg (by simp [hserving]), hp]
    simp [Daemon.threadStep, Coevent.lockCoevent, hbusy]
  cases Alone.eq_of_same hsame hrun

/-! ### `ccb_install` -/

/-- `install_cocallback` on an event. -/
theorem install_iff {funcTag : Bool} {func data : Ptr} {len : Nat}
    (hserving : s.fate = .serving) (hclient : s.alive pid = true ∧ pid ≠ s.mypid) :
    Completes s (.request pid (.ccbInstall true (.proc p) funcTag func len data)) .entry ↔
      (s.procTable p).inProgress = 0 ∧ (s.procTable p).cePid = p ∧ p ≠ 0 ∧ funcTag = true := by
  let a : Action := .request pid (.ccbInstall true (.proc p) funcTag func len data)
  have henter : Alone Daemon.advance a (s, .entry) (s, .lock .install) :=
    alone_step hserving rfl (by simp [Daemon.threadStep, Daemon.enter, hclient, a,
      Daemon.validateCoevent])
  rw [completes_iff henter]
  by_cases hfree : (s.procTable p).inProgress = 0
  · by_cases hset : (s.procTable p).cePid ≠ p ∨ p = 0 ∨ funcTag = false
    · have hbody : (lockedEvent s p).critical a p .install = .error .faults := by
        simp [Daemon.critical, a, Daemon.queueCocallback, procTable_lockedEvent,
          Coevent.addCocallback, bind, Except.bind, hset]
      refine iff_of_false (not_completes_section hserving rfl hfree hbody) ?_
      rintro ⟨-, hpid, hp, htag⟩
      rcases hset with h | h | h
      · exact h hpid
      · exact hp h
      · rw [htag] at h
        cases h
    · have hbody : (lockedEvent s p).critical a p .install =
          .ok (enqueue (lockedEvent s p) p func (.data len data)) := by
        simp [Daemon.critical, a, Daemon.queueCocallback, procTable_lockedEvent,
          Coevent.addCocallback, bind, Except.bind, hset, enqueue, Daemon.setEvent]
      have hheld :
          ((enqueue (lockedEvent s p) p func (.data len data)).procTable p).inProgress = 1 := by
        simp [enqueue, Daemon.setEvent, lockedEvent]
      have hevent : a.event = p := rfl
      have hrun := alone_section hserving hevent hfree hbody hserving hheld
      simp only [not_or, not_not, Bool.not_eq_false] at hset
      exact iff_of_true ((completes_iff hrun).mpr (completes_replied .done)) ⟨hfree, hset⟩
  · refine iff_of_false (not_completes_spin hserving rfl hfree) ?_
    exact fun h => hfree h.1

/-! ### `ccb_register` -/

/-- A callback is queued, and the lock is given up. -/
theorem release_enqueue {func : Ptr} {args : CocallbackArgs}
    (hfree : (s.procTable p).inProgress = 0) :
    (enqueue (lockedEvent s p) p func args).setEvent p
      { (enqueue (lockedEvent s p) p func args).procTable p with inProgress := 0 } =
        enqueue s p func args := by
  simp [enqueue, lockedEvent, Daemon.setEvent, hfree]

/-- The lock is taken and given up. -/
theorem release_locked (hfree : (s.procTable p).inProgress = 0) :
    (lockedEvent s p).setEvent p { (lockedEvent s p).procTable p with inProgress := 0 } = s := by
  rw [procTable_lockedEvent, lockedEvent, setEvent_setEvent]
  exact setEvent_same hfree rfl

/-- `monitor_provider` makes a record. -/
theorem alone_monitor (hserving : s.fate = .serving) (hp : a.event = p)
    (hfree : (s.procTable p).inProgress = 0) :
    Alone Daemon.advance a (s, .lock .monitor) (withRecord s p, .fetchAdd) := by
  by_cases hempty : (s.procTable p).callbacks = []
  · have hbody : (lockedEvent s p).critical a p .monitor =
        .ok (enqueue (lockedEvent s p) p s.providerDeath (.provided [])) := by
      simp [Daemon.critical, Daemon.queueCocallback, procTable_lockedEvent, hempty,
        Coevent.addCocallback, bind, Except.bind, enqueue, Daemon.setEvent]
      rfl
    have hheld : ((enqueue (lockedEvent s p) p s.providerDeath
        (.provided [])).procTable p).inProgress = 1 := by
      simp [enqueue, Daemon.setEvent, lockedEvent]
    have hrun := alone_section hserving hp hfree hbody hserving hheld
    rw [release_enqueue hfree] at hrun
    rwa [withRecord, if_pos hempty]
  · have hbody : (lockedEvent s p).critical a p .monitor = .ok (lockedEvent s p) := by
      simp [Daemon.critical, procTable_lockedEvent, hempty]
    have hrun := alone_section hserving hp hfree hbody hserving
      (by rw [procTable_lockedEvent])
    rw [release_locked hfree] at hrun
    rwa [withRecord, if_neg hempty]

section Register
variable {scb : Scb} {flags : Flags} {newBase : Nat}

/-- The table with a new entry, as `register_cocallback_func` leaves it. -/
def withEntry (s : Daemon) (f : CocallbackFunc) (newBase : Nat) : Daemon :=
  { s with
    base := baseAfter s newBase
    tblLen := if s.tblLen ≤ s.funcs.length then s.tblLen + baseTblLen else s.tblLen
    funcs := s.funcs ++ [f] }

/-- `allocate_ccb_func` takes the next entry, and extends the table when it is full. -/
theorem alone_allocateFunc (hserving : s.fate = .serving) (htag : scb.tag = true) :
    Alone Daemon.advance (.request pid (.ccbRegister scb flags newBase)) (s, .fetchAdd)
      (withEntry s zeroFunc newBase, .address s.funcs.length) := by
  let a : Action := .request pid (.ccbRegister scb flags newBase)
  let t : Daemon := { s with funcs := s.funcs ++ [zeroFunc] }
  have hadd : Alone Daemon.advance a (s, .fetchAdd) (t, .check s.funcs.length) :=
    alone_step hserving rfl (by simp [Daemon.threadStep, Daemon.registerStep, htag, a, t])
  by_cases hfull : s.tblLen ≤ s.funcs.length
  · have hcheck : Alone Daemon.advance a (t, .check s.funcs.length)
        (t, .extend s.funcs.length) :=
      alone_step hserving rfl (by simp [Daemon.threadStep, Daemon.registerStep, hfull, a, t])
    refine (hadd.trans hcheck).trans (alone_step hserving rfl ?_)
    -- The test is repeated under the mutex, with the counter that is one further.
    have hstill : ¬s.funcs.length + 1 < s.tblLen := by omega
    simp [Daemon.threadStep, Daemon.registerStep, hfull, a, t, hstill, withEntry, baseAfter]
  · refine hadd.trans (alone_step hserving rfl ?_)
    simp [Daemon.threadStep, Daemon.registerStep, hfull, a, t, withEntry, baseAfter]

/-- The extended table has the new entry unless the counter is too far ahead. -/
theorem length_lt_withEntry {f : CocallbackFunc} :
    s.funcs.length < (withEntry s f newBase).tblLen ↔
      s.funcs.length < s.tblLen + baseTblLen := by
  simp only [withEntry]
  split <;> omega

/-- `register_cocallback_func` fills the entry in. -/
theorem alone_register (hserving : s.fate = .serving) (htag : scb.tag = true)
    (hroom : s.funcs.length < s.tblLen + baseTblLen) :
    Alone Daemon.advance (.request pid (.ccbRegister scb flags newBase)) (s, .fetchAdd)
      (withEntry s ⟨scb, pid, flags⟩ newBase,
        .lock (.provide ⟨baseAfter s newBase, s.funcs.length⟩)) := by
  let a : Action := .request pid (.ccbRegister scb flags newBase)
  have hallocate : Alone Daemon.advance a (s, .fetchAdd)
      (withEntry s zeroFunc newBase, .address s.funcs.length) := alone_allocateFunc hserving htag
  have haddress : Alone Daemon.advance a (withEntry s zeroFunc newBase, .address s.funcs.length)
      (withEntry s zeroFunc newBase, .fill ⟨baseAfter s newBase, s.funcs.length⟩) := by
    refine alone_step hserving rfl ?_
    simp only [Daemon.threadStep, Daemon.registerStep, a]
    rw [if_pos (length_lt_withEntry.mpr hroom)]
    rfl
  refine (hallocate.trans haddress).trans (alone_step hserving rfl ?_)
  simp [Daemon.threadStep, Daemon.registerStep, Daemon.fillFunc, withEntry, a]

/-- The index of the new entry is behind the end of the table, even after its extension. -/
theorem not_completes_register (hserving : s.fate = .serving) (htag : scb.tag = true)
    (hroom : ¬s.funcs.length < s.tblLen + baseTblLen) :
    ¬Completes s (.request pid (.ccbRegister scb flags newBase)) .fetchAdd := by
  let a : Action := .request pid (.ccbRegister scb flags newBase)
  let t := withEntry s zeroFunc newBase
  have haddress : Alone Daemon.advance a (t, .address s.funcs.length) (t.halt .faults, .ended) := by
    refine alone_step hserving rfl ?_
    simp only [Daemon.threadStep, Daemon.registerStep, a]
    rw [if_neg (length_lt_withEntry.not.mpr hroom)]
  rw [completes_iff ((alone_allocateFunc hserving htag).trans haddress)]
  exact not_completes_ended

/-- `add_func_to_provider` links the function into the record of its provider. -/
theorem alone_provide {func : Ptr} {ccb : Cocallback} {rest : List Cocallback}
    (hserving : s.fate = .serving) (hp : a.event = p) (hfree : (s.procTable p).inProgress = 0)
    (hqueue : (s.procTable p).callbacks = ccb :: rest) (hfirst : ccb.func = s.providerDeath) :
    Alone Daemon.advance a (s, .lock (.provide func))
      (s.setEvent p { s.procTable p with callbacks := linked s ccb func :: rest },
        .replied (.func func)) := by
  let e : Coevent := ⟨(s.procTable p).cePid, 1, linked s ccb func :: rest⟩
  have hbody : (lockedEvent s p).critical a p (.provide func) = .ok (s.setEvent p e) := by
    have hsame : ¬ccb.func ≠ (lockedEvent s p).providerDeath := not_not.mpr hfirst
    simp only [Daemon.critical, procTable_lockedEvent, hqueue]
    rw [if_neg hsame, lockedEvent, setEvent_setEvent]
    cases hargs : ccb.args <;> simp [e, linked, hargs, Daemon.providedFuncs, Daemon.setEvent]
  have hrun := alone_section hserving hp hfree hbody hserving (by rw [procTable_setEvent])
  rwa [procTable_setEvent, setEvent_setEvent, ← hfree] at hrun

/-- The assertion of `add_func_to_provider` fails. -/
theorem not_completes_provide {func : Ptr} {ccb : Cocallback} {rest : List Cocallback}
    (hserving : s.fate = .serving) (hp : a.event = p) (hfree : (s.procTable p).inProgress = 0)
    (hqueue : (s.procTable p).callbacks = ccb :: rest) (hfirst : ccb.func ≠ s.providerDeath) :
    ¬Completes s a (.lock (.provide func)) := by
  have hbody : (lockedEvent s p).critical a p (.provide func) = .error .aborts := by
    simp only [Daemon.critical, procTable_lockedEvent, hqueue]
    exact if_pos hfirst
  exact not_completes_section hserving hp hfree hbody

/-- The event is to be set up again, or its queue is empty or begins with the record of its
provider. -/
def RecordFirst (s : Daemon) (p : Nat) : Prop :=
  (s.procTable p).inProgress = -1 ∨ (s.procTable p).cePid ≠ p ∨
    ∀ ccb ∈ (s.procTable p).callbacks.head?, ccb.func = s.providerDeath

theorem recordFirst_iff {ccb : Cocallback} {rest : List Cocallback}
    (hqueue : ((withRecord (openEvent s p) p).procTable p).callbacks = ccb :: rest) :
    ccb.func = s.providerDeath ↔ RecordFirst s p := by
  by_cases hset : (s.procTable p).cePid ≠ p ∨ (s.procTable p).inProgress = -1
  · have hopen : openEvent s p = { s.setEvent p ⟨p, 0, []⟩ with
        monitored := Function.update s.monitored p true } := if_pos hset
    have hfirst : ccb.func = s.providerDeath := by
      rw [hopen] at hqueue
      simp [withRecord, enqueue, Daemon.setEvent] at hqueue
      rw [← hqueue.1]
    exact iff_of_true hfirst (hset.symm.imp_right .inl)
  · have hopen : openEvent s p = s := if_neg hset
    rw [hopen] at hqueue
    rw [not_or, not_not] at hset
    by_cases hempty : (s.procTable p).callbacks = []
    · have hfirst : ccb.func = s.providerDeath := by
        simp [withRecord, enqueue, Daemon.setEvent, hempty] at hqueue
        rw [← hqueue.1]
      exact iff_of_true hfirst (.inr (.inr (by simp [hempty])))
    · rw [withRecord, if_neg hempty] at hqueue
      simp [RecordFirst, hset, hqueue]

/-- `monitor_provider`, for a request that has passed its validator. -/
theorem alone_monitorProvider (hserving : s.fate = .serving)
    (hclient : s.alive pid = true ∧ pid ≠ s.mypid) (htag : scb.tag = true)
    (hsealed : scb.isSealed = true)
    (hfree : (s.procTable pid).inProgress = 0 ∨ (s.procTable pid).inProgress = -1) :
    Alone Daemon.advance (.request pid (.ccbRegister scb flags newBase)) (s, .entry)
      (withRecord (openEvent s pid) pid, .fetchAdd) := by
  let a : Action := .request pid (.ccbRegister scb flags newBase)
  have hevent : a.event = pid := rfl
  have henter : Alone Daemon.advance a (s, .entry) (s, .allocate) :=
    alone_step hserving hevent (by simp [Daemon.threadStep, Daemon.enter, hclient, a, htag,
      hsealed])
  have hopen := alone_allocate hserving hevent hfree
  refine (henter.trans hopen).trans (alone_monitor ?_ hevent (openEvent_inProgress hfree))
  rw [openEvent_fate]
  exact hserving

/-- What `monitor_provider` leaves alone, and the word of the event. -/
theorem monitored_kept (hserving : s.fate = .serving)
    (hfree : (s.procTable pid).inProgress = 0 ∨ (s.procTable pid).inProgress = -1) :
    (withRecord (openEvent s pid) pid).fate = .serving ∧
      (withRecord (openEvent s pid) pid).funcs = s.funcs ∧
      (withRecord (openEvent s pid) pid).tblLen = s.tblLen ∧
      (withRecord (openEvent s pid) pid).providerDeath = s.providerDeath ∧
      ((withRecord (openEvent s pid) pid).procTable pid).inProgress = 0 := by
  have hword : ((withRecord (openEvent s pid) pid).procTable pid).inProgress = 0 := by
    rw [withRecord_inProgress]
    exact openEvent_inProgress hfree
  obtain ⟨table, m, n, added, heq⟩ := monitor_kept s pid
  rw [heq] at hword ⊢
  exact ⟨hserving, rfl, rfl, rfl, hword⟩

/-- A request that is handled in one go gives the same answer when it runs alone, and leaves the
same state behind. -/
theorem alone_registered {ccb : Cocallback} {rest : List Cocallback} (hserving : s.fate = .serving)
    (hclient : s.alive pid = true ∧ pid ≠ s.mypid) (htag : scb.tag = true)
    (hsealed : scb.isSealed = true)
    (hfree : (s.procTable pid).inProgress = 0 ∨ (s.procTable pid).inProgress = -1)
    (hroom : s.funcs.length < s.tblLen + baseTblLen)
    (hqueue : ((withRecord (openEvent s pid) pid).procTable pid).callbacks = ccb :: rest)
    (hfirst : ccb.func = s.providerDeath) :
    Alone Daemon.advance (.request pid (.ccbRegister scb flags newBase)) (s, .entry)
      (addFunc (withRecord (openEvent s pid) pid) ⟨scb, pid, flags⟩ newBase ccb rest,
        .replied (.func
          ⟨baseAfter (withRecord (openEvent s pid) pid) newBase, s.funcs.length⟩)) := by
  let a : Action := .request pid (.ccbRegister scb flags newBase)
  obtain ⟨hfate, hfuncs, hlen, hdeath, hword⟩ := monitored_kept hserving hfree
  have hmonitor : Alone Daemon.advance a _ _ :=
    alone_monitorProvider hserving hclient htag hsealed hfree
  refine hmonitor.trans ?_
  generalize withRecord (openEvent s pid) pid = t at *
  rw [← hfuncs] at hroom ⊢
  rw [← hlen] at hroom
  rw [← hdeath] at hfirst
  let func : Ptr := ⟨baseAfter t newBase, t.funcs.length⟩
  have hprovide : Alone Daemon.advance a
      (withEntry t ⟨scb, pid, flags⟩ newBase, .lock (.provide func)) _ :=
    alone_provide hfate rfl hword hqueue hfirst
  exact (alone_register hfate htag hroom).trans hprovide

/-- `cocallback_register` on an event that is not in progress. -/
theorem register_iff (hserving : s.fate = .serving)
    (hclient : s.alive pid = true ∧ pid ≠ s.mypid) (htag : scb.tag = true)
    (hsealed : scb.isSealed = true)
    (hfree : (s.procTable pid).inProgress = 0 ∨ (s.procTable pid).inProgress = -1) :
    Completes s (.request pid (.ccbRegister scb flags newBase)) .entry ↔
      s.funcs.length < s.tblLen + baseTblLen ∧ RecordFirst s pid := by
  let a : Action := .request pid (.ccbRegister scb flags newBase)
  obtain ⟨ccb, rest, hqueue⟩ := withRecord_queue (openEvent s pid) pid
  rw [← recordFirst_iff hqueue]
  by_cases hok : s.funcs.length < s.tblLen + baseTblLen ∧ ccb.func = s.providerDeath
  · have hrun : Alone Daemon.advance a (s, .entry) _ :=
      alone_registered hserving hclient htag hsealed hfree hok.1 hqueue hok.2
    exact iff_of_true ⟨_, _, hrun⟩ hok
  · refine iff_of_false ?_ hok
    obtain ⟨hfate, hfuncs, hlen, hdeath, hword⟩ := monitored_kept hserving hfree
    rw [completes_iff (alone_monitorProvider hserving hclient htag hsealed hfree)]
    generalize withRecord (openEvent s pid) pid = t at *
    rw [← hfuncs, ← hlen, ← hdeath] at hok
    -- Either the assertion about the first record fails, or the store is behind the table.
    by_cases hroom : t.funcs.length < t.tblLen + baseTblLen
    · rw [completes_iff (alone_register hfate htag hroom)]
      have hfirst : ccb.func ≠ t.providerDeath := fun h => hok ⟨hroom, h⟩
      let func : Ptr := ⟨baseAfter t newBase, t.funcs.length⟩
      have habort : ¬Completes (withEntry t ⟨scb, pid, flags⟩ newBase) a
          (.lock (.provide func)) :=
        not_completes_provide hfate rfl hword hqueue hfirst
      exact habort
    · exact not_completes_register hfate htag hroom

/-- The validator of `ccb_register` refuses the SCB. -/
theorem register_refused (hserving : s.fate = .serving)
    (hclient : s.alive pid = true ∧ pid ≠ s.mypid)
    (hbad : scb.tag = false ∨ scb.isSealed = false) :
    Completes s (.request pid (.ccbRegister scb flags newBase)) .entry := by
  let a : Action := .request pid (.ccbRegister scb flags newBase)
  have henter : Alone Daemon.advance a (s, .entry) (s, .replied (.err .einval)) :=
    alone_step hserving rfl (by simp [Daemon.threadStep, Daemon.enter, hclient, a, hbad])
  exact ⟨s, .err .einval, henter⟩

end Register

end Alone

/-- Process 3 registers a function. Then process 2 gets the handle of its event and dies, and the
event is triggered. -/
def registerListenDie : List (PoolAct Action) :=
  PoolAct.arrive (register 3) :: List.replicate 16 (PoolAct.advance 0) ++
  PoolAct.arrive (listen 2) :: List.replicate 4 (PoolAct.advance 1) ++
  [PoolAct.arrive (.die 2), PoolAct.advance 2] ++
  PoolAct.arrive (.report 2) :: List.replicate 4 (PoolAct.advance 3)

end Comsg.Proofs.Coeventd
