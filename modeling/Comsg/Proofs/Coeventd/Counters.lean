import Comsg.Lib.RefCount
import Comsg.Proofs.Coeventd.CountEffect
import Comsg.Proofs.Coeventd.Records

/-!
# `Comsg.Proofs.Coeventd.Counters`: the counters of coeventd

`ncallbacks` goes down when the trigger takes a callback, and nothing makes it go up. So it is the
number of callbacks that were taken, below zero (`CountOk.taken`), and it is the length of the
queue only while no callback has ever been queued (`callbacks_not_counted`).

`consumers` goes up with each callback that is queued and down with each that is freed. It is
exact (`ConsumersOk.exact`) as long as the table of functions does not move under the pointers
that are queued, and those that are installed were handed out (`TableStays`).

`counters_exact_iff` is about both: they are exact if and only if no step of the run has queued a
callback.
-/

set_option autoImplicit false

namespace Comsg.Proofs.Coeventd

open Comsg.Lib
open Comsg.Coeventd

/-! ### The number of callbacks -/

/-- `ncallbacks` counts the callbacks that were taken, downwards. What was queued has been taken
or waits. -/
structure CountOk (c : CountedDaemon) : Prop where
  taken : ∀ p, c.ncallbacks p = -((c.daemon.handled p).length : Int)
  fresh : ∀ p, (c.daemon.procTable p).cePid ≠ p → c.daemon.handled p = []
  added : ∀ p, (c.daemon.added p).length =
    (c.daemon.handled p).length + (c.daemon.procTable p).callbacks.length

section Callbacks
variable {c c' : CountedDaemon} {pid : Nat}

/-- Setting up the event of a live process leaves its count, which is zero if it was not set
up. -/
theorem opened_ncallbacks (h : CountOk c) (hok : ServingOk c.daemon)
    (halive : c.daemon.alive pid = true) : (opened c pid).ncallbacks = c.ncallbacks := by
  unfold opened
  simp only
  split
  · rename_i hset
    have hfree := hok.free halive
    have hpid : (c.daemon.procTable pid).cePid ≠ pid := by
      refine hset.resolve_right ?_
      rw [hfree]
      decide
    have hzero : c.ncallbacks pid = 0 := by
      rw [h.taken pid, h.fresh pid hpid]
      rfl
    rw [← hzero, Function.update_eq_self]
  · rfl

theorem countOk_opened (h : CountOk c) (hok : ServingOk c.daemon)
    (halive : c.daemon.alive pid = true) : CountOk (opened c pid) := by
  have hsame := opened_ncallbacks h hok halive
  obtain ⟨m, heq⟩ := openEvent_eq hok halive
  exact {
    taken := fun p => by
      rw [hsame, opened_daemon, heq]
      exact h.taken p
    fresh := by
      rw [opened_daemon, heq]
      refine (Function.forall_update_iff c.daemon.procTable fun p e =>
        e.cePid ≠ p → c.daemon.handled p = []).mpr ⟨fun hne => ?_, fun p _ => h.fresh p⟩
      exact absurd rfl hne
    added := by
      rw [opened_daemon, heq]
      exact (Function.forall_update_iff c.daemon.procTable fun p e =>
        (c.daemon.added p).length = (c.daemon.handled p).length + e.callbacks.length).mpr
          ⟨h.added pid, fun p _ => h.added p⟩ }

theorem countOk_queued {func : Ptr} {args : CocallbackArgs} (h : CountOk c) :
    CountOk (queued c pid func args) where
  taken := h.taken
  fresh := (Function.forall_update_iff c.daemon.procTable fun p e =>
    e.cePid ≠ p → c.daemon.handled p = []).mpr ⟨h.fresh pid, fun p _ => h.fresh p⟩
  added p := by
    have hp := h.added p
    by_cases hpp : p = pid
    · subst hpp
      simp [queued, enqueue, Daemon.setEvent]
      omega
    · simpa [queued, enqueue, Daemon.setEvent, Function.update_of_ne hpp] using hp

theorem countOk_recorded (h : CountOk c) : CountOk (recorded c pid) := by
  unfold recorded
  split
  · exact countOk_queued h
  · exact h

theorem countOk_withFunc {f : CocallbackFunc} {newBase : Nat} {ccb : Cocallback}
    {rest : List Cocallback} (h : CountOk c)
    (hqueue : (c.daemon.procTable f.provider).callbacks = ccb :: rest) :
    CountOk (withFunc c f newBase ccb rest) where
  taken := h.taken
  fresh := (Function.forall_update_iff c.daemon.procTable fun p e =>
    e.cePid ≠ p → c.daemon.handled p = []).mpr ⟨h.fresh f.provider, fun p _ => h.fresh p⟩
  added := by
    refine (Function.forall_update_iff c.daemon.procTable fun p e => (c.daemon.added p).length =
      (c.daemon.handled p).length + e.callbacks.length).mpr ⟨?_, fun p _ => h.added p⟩
    rw [h.added f.provider, hqueue, List.length_cons, List.length_cons]

/-- A callback that is taken leaves the queue, and the count goes down. -/
theorem countOk_countedOne {ccb : Cocallback} {rest : List Cocallback} (h : CountOk c)
    (hpid : (c.daemon.procTable pid).cePid = pid)
    (hqueue : (c.daemon.procTable pid).callbacks = ccb :: rest) :
    CountOk (countedOne c pid ccb rest) := by
  have helse := elsewhere_handledOne c.daemon pid ccb rest
  have hhandled := handledOne_handled c.daemon pid ccb rest
  exact {
    taken := fun p => by
      by_cases hpp : p = pid
      · subst hpp
        have hp := h.taken p
        simp only [countedOne, Function.update_self, hhandled, List.length_append,
          List.length_singleton, hp]
        omega
      · simp only [countedOne, Function.update_of_ne hpp, helse.handled p hpp]
        exact h.taken p
    fresh := fun p hne => by
      replace hne : ((handledOne c.daemon pid ccb rest).procTable p).cePid ≠ p := hne
      by_cases hpp : p = pid
      · subst hpp
        exact absurd (helse.cePid.trans hpid) hne
      · rw [helse.events p hpp] at hne
        exact (helse.handled p hpp).trans (h.fresh p hne)
    added := fun p => by
      show ((handledOne c.daemon pid ccb rest).added p).length =
        ((handledOne c.daemon pid ccb rest).handled p).length +
          ((handledOne c.daemon pid ccb rest).procTable p).callbacks.length
      rw [helse.added]
      by_cases hpp : p = pid
      · subst hpp
        rw [hhandled, handledOne_callbacks, h.added p, hqueue, List.length_append,
          List.length_singleton, List.length_cons]
        omega
      · rw [helse.events p hpp, helse.handled p hpp]
        exact h.added p }

/-- A change of one event that leaves its pid and its queue. -/
theorem countOk_setEvent {e : Coevent} {m : Nat → Bool} (h : CountOk c)
    (hpid : e.cePid = (c.daemon.procTable pid).cePid)
    (hqueue : e.callbacks = (c.daemon.procTable pid).callbacks) :
    CountOk { c with daemon := { c.daemon.setEvent pid e with monitored := m } } where
  taken := h.taken
  fresh := (Function.forall_update_iff c.daemon.procTable fun p e =>
    e.cePid ≠ p → c.daemon.handled p = []).mpr
      ⟨by rw [hpid]; exact h.fresh pid, fun p _ => h.fresh p⟩
  added := (Function.forall_update_iff c.daemon.procTable fun p e => (c.daemon.added p).length =
    (c.daemon.handled p).length + e.callbacks.length).mpr
      ⟨by rw [hqueue]; exact h.added pid, fun p _ => h.added p⟩

theorem countOk_trigger (h : CountOk c) (hok : ServingOk c.daemon)
    (hserving : (c.triggerCocallbacks pid).daemon.fate = .serving) :
    CountOk (c.triggerCocallbacks pid) := by
  refine countedTrigger_rule (P := fun queue t => CountOk t ∧
    (t.daemon.procTable pid).callbacks = queue ∧
    ((t.daemon.procTable pid).cePid ≠ pid → queue = [])) ?_ ?_ ?_ hserving
  · intro t ccb rest ⟨hcount, hqueue, hset⟩
    have hpid : (t.daemon.procTable pid).cePid = pid := by
      by_contra hne
      cases hset hne
    refine ⟨countOk_countedOne hcount hpid hqueue,
      handledOne_callbacks t.daemon pid ccb rest, fun hne => absurd ?_ hne⟩
    exact (elsewhere_handledOne t.daemon pid ccb rest).cePid.trans hpid
  · rintro t ⟨hcount, -, -⟩
    exact countOk_setEvent hcount rfl rfl
  · refine ⟨countOk_setEvent h rfl rfl, ?_, ?_⟩
    · simp [startTrigger, Daemon.setEvent]
    · simpa [startTrigger, Daemon.setEvent] using hok.set_up pid

/-- A step keeps the count. -/
theorem countOk_change {a : Action} (h : CountOk c) (hok : ServingOk c.daemon)
    (hc : CountChange c a c') (hserving : c'.daemon.fate = .serving) : CountOk c' := by
  cases hc with
  | kept a alive memory chains hquiet => exact ⟨h.taken, h.fresh, h.added⟩
  | listened pid event subject halive => exact countOk_opened h hok halive
  | registered pid scb flags newBase ccb rest halive htag hsealed hqueue =>
    exact countOk_withFunc (countOk_recorded (countOk_opened h hok halive)) hqueue
  | installed pid p func len data hpid => exact countOk_queued h
  | reported pid hdead => exact countOk_trigger h hok hserving

theorem countOk_init {mypid base : Nat} {memory : Ptr → CocallbackFunc}
    {chains : Ptr → List Ptr} : CountOk (initCountedDaemon mypid base memory chains) where
  taken _ := rfl
  fresh _ _ := rfl
  added _ := rfl

/-- The count is the length of the queue when nothing was ever queued, and only then. -/
theorem CountOk.exact_iff (h : CountOk c) (p : Nat) :
    c.ncallbacks p = (c.daemon.procTable p).callbacks.length ↔ c.daemon.added p = [] := by
  rw [h.taken p, ← List.length_eq_zero_iff, h.added p]
  omega

end Callbacks

/-! ### The number of consumers -/

/-- The functions that the callbacks of an event refer to. -/
def refs (s : Daemon) (p : Nat) : List Ptr := (s.procTable p).callbacks.map (·.func)

/-- The table of functions stays where it is. A pointer into it that is installed is one that was
handed out. -/
def TableStays (s : Daemon) : Action → Prop
  | .request _ (.ccbRegister scb _ newBase) =>
    scb.tag = true → scb.isSealed = true → s.funcs.length < s.tblLen ∨ newBase = s.base
  | .request _ (.ccbInstall tag coevent funcTag func _ _) =>
    (Daemon.validateCoevent tag coevent).isSome → funcTag = true → func.base = s.base →
      func.idx < s.funcs.length
  | _ => True

/-- Each function has as many consumers as there are callbacks that refer to it. -/
structure ConsumersOk (c : CountedDaemon) : Prop where
  death : c.daemon.providerDeath = ⟨c.daemon.base, 0⟩
  pos : 0 < c.daemon.funcs.length
  known : ∀ p, ∀ ptr ∈ refs c.daemon p, ptr.base = c.daemon.base →
    ptr.idx < c.daemon.funcs.length
  counted : Counted (refs c.daemon) c.consumers

section Consumers
variable {c c' : CountedDaemon} {s t : Daemon} {pid : Nat}

/-- One queue changes. -/
theorem refs_update {e : Coevent} (h : t.procTable = Function.update s.procTable pid e) :
    refs t = Function.update (refs s) pid (e.callbacks.map (·.func)) := by
  funext p
  unfold refs
  rw [h]
  by_cases hp : p = pid
  · subst hp
    simp
  · simp [Function.update_of_ne hp]

/-- One event changes, and not its queue. -/
theorem refs_same {e : Coevent} (h : t.procTable = Function.update s.procTable pid e)
    (hqueue : e.callbacks.map (·.func) = refs s pid) : refs t = refs s := by
  rw [refs_update h, hqueue, Function.update_eq_self]

/-- What does not touch the queues, the place of the table or the counters. -/
theorem ConsumersOk.frame (h : ConsumersOk c) (hrefs : refs c'.daemon = refs c.daemon)
    (hbase : c'.daemon.base = c.daemon.base)
    (hdeath : c'.daemon.providerDeath = c.daemon.providerDeath)
    (hlen : c'.daemon.funcs.length = c.daemon.funcs.length)
    (hconsumers : c'.consumers = c.consumers) : ConsumersOk c' where
  death := by
    rw [hdeath, hbase]
    exact h.death
  pos := by
    rw [hlen]
    exact h.pos
  known := by
    rw [hrefs, hbase, hlen]
    exact h.known
  counted := by
    rw [hrefs, hconsumers]
    exact h.counted

theorem consumersOk_opened (h : ConsumersOk c) (hok : ServingOk c.daemon)
    (halive : c.daemon.alive pid = true) : ConsumersOk (opened c pid) := by
  obtain ⟨m, heq⟩ := openEvent_eq hok halive
  refine h.frame ?_ ?_ ?_ ?_ rfl
  · rw [opened_daemon, heq]
    exact refs_same rfl rfl
  all_goals rw [opened_daemon, heq]

/-- A new callback, and a consumer more of its function. -/
theorem consumersOk_queued {func : Ptr} {args : CocallbackArgs} (h : ConsumersOk c)
    (hfunc : func.base = c.daemon.base → func.idx < c.daemon.funcs.length) :
    ConsumersOk (queued c pid func args) := by
  have hrefs : refs (queued c pid func args).daemon =
      Function.update (refs c.daemon) pid (refs c.daemon pid ++ [func]) := by
    rw [refs_update (t := (queued c pid func args).daemon) (s := c.daemon) rfl, List.map_append]
    rfl
  exact {
    death := h.death
    pos := h.pos
    known := by
      rw [hrefs]
      refine (Function.forall_update_iff (refs c.daemon) fun _ l => ∀ ptr ∈ l,
        ptr.base = c.daemon.base → ptr.idx < c.daemon.funcs.length).mpr
          ⟨fun ptr hptr => ?_, fun p _ => h.known p⟩
      rcases List.mem_append.mp hptr with hptr | hptr
      · exact h.known pid ptr hptr
      · rw [List.mem_singleton.mp hptr]
        exact hfunc
    counted := by
      rw [hrefs]
      exact h.counted.push pid func }

theorem consumersOk_recorded (h : ConsumersOk c) : ConsumersOk (recorded c pid) := by
  unfold recorded
  split
  · refine consumersOk_queued h fun _ => ?_
    rw [h.death]
    exact h.pos
  · exact h

/-- The entries of a table that stays where it is keep their counters. -/
theorem moveConsumers_same (consumers : Ptr → Int) (base n : Nat) :
    CountedDaemon.moveConsumers consumers base base n = consumers := by
  funext ptr
  unfold CountedDaemon.moveConsumers
  split
  · rename_i hptr
    rw [← hptr.1]
  · rfl

/-- Nothing refers to a new function yet. -/
theorem consumersOk_withFunc {f : CocallbackFunc} {newBase : Nat} {ccb : Cocallback}
    {rest : List Cocallback} (h : ConsumersOk c)
    (hbase : baseAfter c.daemon newBase = c.daemon.base)
    (hqueue : (c.daemon.procTable f.provider).callbacks = ccb :: rest) :
    ConsumersOk (withFunc c f newBase ccb rest) := by
  have hrefs : refs (withFunc c f newBase ccb rest).daemon = refs c.daemon := by
    refine @refs_same c.daemon _ f.provider _ rfl ?_
    simp [refs, hqueue, linked]
  have hnew : ∀ p, (⟨c.daemon.base, c.daemon.funcs.length⟩ : Ptr) ∉ refs c.daemon p := by
    intro p hmem
    exact Nat.lt_irrefl _ (h.known p _ hmem rfl)
  have hlen : (withFunc c f newBase ccb rest).daemon.funcs.length =
      c.daemon.funcs.length + 1 := List.length_append
  exact {
    death := by
      show c.daemon.providerDeath = ⟨baseAfter c.daemon newBase, 0⟩
      rw [hbase]
      exact h.death
    pos := by
      rw [hlen]
      omega
    known := by
      intro p ptr hptr hplace
      rw [hrefs] at hptr
      have hlt := h.known p ptr hptr (hplace.trans hbase)
      rw [hlen]
      omega
    counted := by
      rw [hrefs]
      simp only [withFunc, hbase, moveConsumers_same]
      exact h.counted.reset hnew }

theorem length_of_elsewhere (h : Elsewhere s t pid) : t.funcs.length = s.funcs.length := by
  have hsame : t.funcs.map (fun f => (f.scb, f.provider)) =
      s.funcs.map (fun f => (f.scb, f.provider)) := by
    refine List.ext_getElem? fun i => ?_
    rw [List.getElem?_map, List.getElem?_map]
    exact h.funcs i
  simpa using congrArg List.length hsame

/-- A callback that is freed, and a consumer less of its function. -/
theorem consumersOk_countedOne {ccb : Cocallback} {rest : List Cocallback} (h : ConsumersOk c)
    (hqueue : (c.daemon.procTable pid).callbacks = ccb :: rest) :
    ConsumersOk (countedOne c pid ccb rest) := by
  have helse := elsewhere_handledOne c.daemon pid ccb rest
  have hhead : refs c.daemon pid = ccb.func :: rest.map (·.func) := by
    simp [refs, hqueue]
  have hrefs : refs (countedOne c pid ccb rest).daemon =
      Function.update (refs c.daemon) pid (rest.map (·.func)) := by
    funext p
    show ((handledOne c.daemon pid ccb rest).procTable p).callbacks.map (·.func) = _
    by_cases hp : p = pid
    · subst hp
      rw [handledOne_callbacks, Function.update_self]
    · rw [helse.events p hp, Function.update_of_ne hp]
      rfl
  have hbase : (countedOne c pid ccb rest).daemon.base = c.daemon.base := helse.base
  have hlen : (countedOne c pid ccb rest).daemon.funcs.length = c.daemon.funcs.length :=
    length_of_elsewhere helse
  exact {
    death := by
      rw [hbase, ← h.death]
      exact helse.providerDeath
    pos := by
      rw [hlen]
      exact h.pos
    known := by
      rw [hrefs, hbase, hlen]
      refine (Function.forall_update_iff (refs c.daemon) fun _ l => ∀ ptr ∈ l,
        ptr.base = c.daemon.base → ptr.idx < c.daemon.funcs.length).mpr
          ⟨fun ptr hptr => ?_, fun p _ => h.known p⟩
      refine h.known pid ptr ?_
      rw [hhead]
      exact List.mem_cons_of_mem _ hptr
    counted := by
      rw [hrefs]
      exact h.counted.pop hhead }

/-- A change of one event that leaves its queue. -/
theorem consumersOk_setEvent {e : Coevent} {m : Nat → Bool} (h : ConsumersOk c)
    (hqueue : e.callbacks = (c.daemon.procTable pid).callbacks) :
    ConsumersOk { c with daemon := { c.daemon.setEvent pid e with monitored := m } } :=
  h.frame (refs_same rfl (by rw [hqueue, refs])) rfl rfl rfl rfl

theorem consumersOk_trigger (h : ConsumersOk c)
    (hserving : (c.triggerCocallbacks pid).daemon.fate = .serving) :
    ConsumersOk (c.triggerCocallbacks pid) := by
  refine countedTrigger_rule (P := fun queue t => ConsumersOk t ∧
    (t.daemon.procTable pid).callbacks = queue) ?_ ?_ ?_ hserving
  · intro t ccb rest ⟨hok, hqueue⟩
    exact ⟨consumersOk_countedOne hok hqueue, handledOne_callbacks t.daemon pid ccb rest⟩
  · intro t ⟨hok, _⟩
    exact consumersOk_setEvent hok rfl
  · refine ⟨consumersOk_setEvent h rfl, ?_⟩
    simp [startTrigger, Daemon.setEvent]

/-- A step keeps this while the table stays where it is. -/
theorem consumersOk_change {a : Action} (h : ConsumersOk c) (hok : ServingOk c.daemon)
    (hplace : TableStays c.daemon a) (hc : CountChange c a c')
    (hserving : c'.daemon.fate = .serving) : ConsumersOk c' := by
  cases hc with
  | kept a alive memory chains hquiet => exact h.frame rfl rfl rfl rfl rfl
  | listened pid event subject halive => exact consumersOk_opened h hok halive
  | registered pid scb flags newBase ccb rest halive htag hsealed hqueue =>
    refine consumersOk_withFunc (consumersOk_recorded (consumersOk_opened h hok halive)) ?_ hqueue
    obtain ⟨t, m, n, added, heq⟩ := monitor_kept c.daemon pid
    rw [recorded_daemon, opened_daemon, heq]
    show (if c.daemon.tblLen ≤ c.daemon.funcs.length then newBase else c.daemon.base) =
      c.daemon.base
    split
    · exact (hplace htag hsealed).resolve_left (by omega)
    · rfl
  | installed pid p func len data hpid => exact consumersOk_queued h (hplace rfl rfl)
  | reported pid hdead => exact consumersOk_trigger h hserving

theorem consumersOk_init {mypid base : Nat} {memory : Ptr → CocallbackFunc}
    {chains : Ptr → List Ptr} : ConsumersOk (initCountedDaemon mypid base memory chains) where
  death := rfl
  pos := Nat.one_pos
  known p ptr hptr := by simp [refs, initCountedDaemon, initDaemon] at hptr
  counted := Counted.nil

end Consumers

/-! ### Runs -/

/-- The consumers of each function in the table are the callbacks that refer to it, in the queues
of `pids` one after another. All the other queues are empty. -/
def ConsumersExact (c : CountedDaemon) : Prop :=
  ∃ pids : List Nat, pids.Nodup ∧ (∀ p ∉ pids, (c.daemon.procTable p).callbacks = []) ∧
    ∀ i < c.daemon.funcs.length,
      c.consumers ⟨c.daemon.base, i⟩ = (pids.flatMap (refs c.daemon)).count ⟨c.daemon.base, i⟩

/-- Both counters are what they stand for. -/
structure CountersExact (c : CountedDaemon) : Prop where
  ncallbacks : ∀ p, c.ncallbacks p = (c.daemon.procTable p).callbacks.length
  consumers : ConsumersExact c

section Runs
variable {mypid base : Nat} {memory : Ptr → CocallbackFunc} {chains : Ptr → List Ptr}
  {c c' : CountedDaemon} {acts : List Action} {pid p : Nat}

theorem ConsumersOk.exact (h : ConsumersOk c) : ConsumersExact c := by
  obtain ⟨pids, hnodup, hnil, hcount⟩ := h.counted
  exact ⟨pids, hnodup, fun p hp => List.map_eq_nil_iff.mp (hnil p hp), fun i _ => hcount _⟩

theorem queued_added {func : Ptr} {args : CocallbackArgs} :
    (queued c pid func args).daemon.added p = [] ↔ c.daemon.added p = [] ∧ pid ≠ p := by
  by_cases hp : p = pid
  · subst hp
    simp [queued, enqueue]
  · simp [queued, enqueue, Function.update_of_ne hp, Ne.symm hp]

/-- A step adds a callback to the event of `p` if and only if its action queues one there. -/
theorem added_change {a : Action} (hok : ServingOk c.daemon) (hc : CountChange c a c') :
    c'.daemon.added p = [] ↔ c.daemon.added p = [] ∧ ¬Queues c.daemon p a := by
  cases hc with
  | kept a alive memory chains hquiet => exact (and_iff_left (hquiet p)).symm
  | listened pid event subject halive =>
    obtain ⟨m, heq⟩ := openEvent_eq hok halive
    rw [opened_daemon, heq]
    exact (and_iff_left id).symm
  | registered pid scb flags newBase ccb rest halive htag hsealed hqueue =>
    obtain ⟨m, heq⟩ := openEvent_eq hok halive
    have hadded : (opened c pid).daemon.added = c.daemon.added := by
      rw [opened_daemon, heq]
    have hsame : ((opened c pid).daemon.procTable pid).callbacks =
        (c.daemon.procTable pid).callbacks := by
      rw [opened_daemon, heq]
      simp
    show (recorded (opened c pid) pid).daemon.added p = [] ↔ _
    unfold recorded
    rw [hsame]
    by_cases hempty : (c.daemon.procTable pid).callbacks = []
    · rw [if_pos hempty, queued_added, hadded]
      refine and_congr_right fun _ => not_congr ⟨?_, fun hqueues => hqueues.1⟩
      rintro rfl
      exact ⟨rfl, htag, hsealed, hempty⟩
    · -- There is a record, or what was installed in its place.
      rw [if_neg hempty, hadded]
      refine (and_iff_left ?_).symm
      rintro ⟨rfl, -, -, hnil⟩
      exact hempty hnil
  | installed pid q func len data hpid =>
    rw [queued_added]
    refine and_congr_right fun _ => not_congr ?_
    simp [Queues, Daemon.validateCoevent]
  | reported pid hdead =>
    have hadded : (c.triggerCocallbacks pid).daemon.added = c.daemon.added := by
      have hdaemon : (c.triggerCocallbacks pid).daemon = c.daemon.triggerCocallbacks pid :=
        triggerLoop_daemon _
      rw [hdaemon]
      exact (trigger_elsewhere c.daemon pid).1.added
    rw [hadded]
    exact (and_iff_left id).symm

theorem countedOk_reach {ok : CountedDaemon → Action → Prop}
    (h : Reach CountedDaemon.step ok (initCountedDaemon mypid base memory chains) c)
    (hserving : c.daemon.fate = .serving) : ServingOk c.daemon ∧ CountOk c := by
  refine ⟨servingOk_reach (reach_daemon h) hserving, ?_⟩
  induction h with
  | init => exact countOk_init
  | next a hreach _ hs ih =>
    have hbefore := countedServing_of_step hs
    have hok := servingOk_reach (reach_daemon hreach) hbefore
    exact countOk_change (ih hbefore) hok (step_count hok.idle hs hserving) hserving

theorem consumersOk_reach
    (h : Reach CountedDaemon.step (fun c a => TableStays c.daemon a)
      (initCountedDaemon mypid base memory chains) c)
    (hserving : c.daemon.fate = .serving) : ConsumersOk c := by
  induction h with
  | init => exact consumersOk_init
  | next a hreach hplace hs ih =>
    have hbefore := countedServing_of_step hs
    have hok := servingOk_reach (reach_daemon hreach) hbefore
    exact consumersOk_change (ih hbefore) hok hplace (step_count hok.idle hs hserving) hserving

/-- No callback was ever queued on the event of `p` if and only if no step queued one. -/
theorem added_run
    (h : Run CountedDaemon.step anyAct (initCountedDaemon mypid base memory chains) acts c)
    (hserving : c.daemon.fate = .serving) (p : Nat) :
    c.daemon.added p = [] ↔ ∀ before a t t',
      Run.At CountedDaemon.step anyAct (initCountedDaemon mypid base memory chains) acts before a
        t t' → ¬Queues t.daemon p a := by
  induction h with
  | init => exact iff_of_true rfl fun before a t t' hat => absurd hat Run.At.not_nil
  | next a hrun hok hs ih =>
    have hbefore := countedServing_of_step hs
    have hserves := servingOk_reach (reach_daemon hrun.reach) hbefore
    rw [added_change hserves (step_count hserves.idle hs hserving), ih hbefore]
    exact (Run.forall_at_concat (P := fun t a => ¬Queues t.daemon p a) hrun hok hs).symm

/-- A run that queues no callback leaves the table of functions alone. -/
theorem tableStays_of_quiet {a : Action} (hcount : CountOk c) (hadded : ∀ p, c.daemon.added p = [])
    (hquiet : ∀ p, ¬Queues c.daemon p a) : TableStays c.daemon a := by
  have hempty (p : Nat) : (c.daemon.procTable p).callbacks = [] := by
    have hp := hcount.added p
    rw [hadded p, List.length_nil] at hp
    exact List.length_eq_zero_iff.mp (by omega)
  cases a with
  | request pid r =>
    cases r with
    | colisten event subject => trivial
    | ccbRegister scb flags newBase =>
      intro htag hsealed
      exact absurd ⟨rfl, htag, hsealed, hempty pid⟩ (hquiet pid)
    | ccbInstall tag coevent funcTag func len data =>
      intro hvalid
      obtain ⟨p, hp⟩ := Option.isSome_iff_exists.mp hvalid
      exact absurd hp (hquiet p)
  | store | die | report => trivial

theorem tableStays_run
    (h : Run CountedDaemon.step anyAct (initCountedDaemon mypid base memory chains) acts c)
    (hserving : c.daemon.fate = .serving)
    (hquiet : ∀ before a t t',
      Run.At CountedDaemon.step anyAct (initCountedDaemon mypid base memory chains) acts before a
        t t' → ∀ p, ¬Queues t.daemon p a) :
    Run CountedDaemon.step (fun c a => TableStays c.daemon a)
      (initCountedDaemon mypid base memory chains) acts c := by
  induction h with
  | init => exact .init
  | next a hrun hok hs ih =>
    obtain ⟨hold, hlast⟩ := (Run.forall_at_concat
      (P := fun t a => ∀ p, ¬Queues t.daemon p a) hrun hok hs).mp hquiet
    have hbefore := countedServing_of_step hs
    have hcount := (countedOk_reach hrun.reach hbefore).2
    have hadded (p : Nat) := (added_run hrun hbefore p).mpr
      fun before b t t' hat => hold before b t t' hat p
    exact .next a (ih hbefore hold) (tableStays_of_quiet hcount hadded hlast) hs

/-- While coeventd serves, its counters are exact if and only if no step of the run has queued a
callback: `ncallbacks` goes down for each callback that is taken, and up for none. The consumers
alone are exact in every run that leaves the table of functions where it is. -/
theorem counters_exact_iff
    (h : Run CountedDaemon.step anyAct (initCountedDaemon mypid base memory chains) acts c)
    (hserving : c.daemon.fate = .serving) :
    (CountersExact c ↔ ∀ before a t t',
      Run.At CountedDaemon.step anyAct (initCountedDaemon mypid base memory chains) acts before a
        t t' → ∀ p, ¬Queues t.daemon p a) ∧
    (Run CountedDaemon.step (fun c a => TableStays c.daemon a)
      (initCountedDaemon mypid base memory chains) acts c → ConsumersExact c) := by
  have hplaced (hrun : Run CountedDaemon.step (fun c a => TableStays c.daemon a)
      (initCountedDaemon mypid base memory chains) acts c) : ConsumersExact c :=
    (consumersOk_reach hrun.reach hserving).exact
  have hcount := (countedOk_reach h.reach hserving).2
  refine ⟨⟨?_, ?_⟩, hplaced⟩
  · intro hexact before a t t' hat p
    exact (added_run h hserving p).mp ((hcount.exact_iff p).mp (hexact.ncallbacks p))
      before a t t' hat
  · intro hquiet
    refine ⟨fun p => (hcount.exact_iff p).mpr ((added_run h hserving p).mpr ?_),
      hplaced (tableStays_run h hserving hquiet)⟩
    intro before a t t' hat
    exact hquiet before a t t' hat p

end Runs

/-- coeventd, with pid 1, before the first request. -/
def freshCounted : CountedDaemon := initCountedDaemon 1 0 (fun _ => ⟨nullScb, 0, 0⟩) fun _ => []

/-- The condition as a test. -/
def checkTableStays (c : CountedDaemon) : Action → Bool
  | .request _ (.ccbRegister _ _ newBase) =>
    decide (c.daemon.funcs.length < c.daemon.tblLen ∨ newBase = c.daemon.base)
  | .request _ (.ccbInstall _ _ _ func _ _) => decide (func.idx < c.daemon.funcs.length)
  | _ => true

theorem tableStays_of_check (c : CountedDaemon) (a : Action) (h : checkTableStays c a = true) :
    TableStays c.daemon a := by
  cases a with
  | request pid r =>
    cases r with
    | colisten event subject => trivial
    | ccbRegister scb flags newBase => exact fun _ _ => of_decide_eq_true h
    | ccbInstall tag coevent funcTag func len data => exact fun _ _ _ => of_decide_eq_true h
  | _ => trivial

/-- A process that has an event without callbacks dies: both counters are exact. A function that
waits on two events has two consumers. -/
theorem counters_exact_iff_two :
    (∃ c, runFrom CountedDaemon.step freshCounted [listen 2, .die 2, .report 2] = some c ∧
      CountersExact c) ∧
    ∃ c, runFrom CountedDaemon.step freshCounted
        [register 2, listen 3, listen 4, install 2 3 1, install 2 4 1] = some c ∧
      c.consumers ⟨0, 1⟩ = 2 ∧ ConsumersExact c := by
  constructor
  · obtain ⟨c, hc⟩ : ∃ c, runFrom CountedDaemon.step freshCounted [listen 2, .die 2, .report 2] =
        some c := Option.isSome_iff_exists.mp (by decide)
    have hserving : c.daemon.fate = .serving :=
      eq_of_map_runFrom (fun c => c.daemon.fate) hc (by decide)
    refine ⟨c, hc, (counters_exact_iff (run_of_runFrom _ _ _ hc) hserving).1.mpr ?_⟩
    intro before a t t' hat p
    obtain ⟨after, hsplit⟩ := hat.split
    have ha : a ∈ [listen 2, .die 2, .report 2] := by
      rw [hsplit]
      simp
    simp only [List.mem_cons, List.not_mem_nil, or_false] at ha
    rcases ha with rfl | rfl | rfl <;> exact id
  · obtain ⟨c, hc⟩ : ∃ c, runFrom CountedDaemon.step freshCounted
        [register 2, listen 3, listen 4, install 2 3 1, install 2 4 1] = some c :=
      Option.isSome_iff_exists.mp (by decide)
    have hserving : c.daemon.fate = .serving :=
      eq_of_map_runFrom (fun c => c.daemon.fate) hc (by decide)
    have hconsumers : c.consumers ⟨0, 1⟩ = 2 :=
      eq_of_map_runFrom (fun c => c.consumers ⟨0, 1⟩) hc (by decide)
    have hplaced : Run CountedDaemon.step (fun c a => TableStays c.daemon a) freshCounted _ c :=
      run_of_checkAll tableStays_of_check _ _ _ (by decide) hc
    exact ⟨c, hc, hconsumers,
      (counters_exact_iff (run_of_runFrom _ _ _ hc) hserving).2 hplaced⟩

/-- A process registers a function and dies. Its record is taken from the queue, and the event
counts -1 callbacks. -/
theorem callbacks_not_counted :
    ∃ c, Reach CountedDaemon.step anyAct freshCounted c ∧ c.daemon.fate = .serving ∧
      (c.daemon.procTable 2).callbacks = [] ∧ c.ncallbacks 2 = -1 ∧ ¬CountersExact c := by
  obtain ⟨c, hc, hreach⟩ := exists_reach_of_isSome CountedDaemon.step
    [register 2, .die 2, .report 2] freshCounted (by decide)
  have hqueue : (c.daemon.procTable 2).callbacks = [] :=
    eq_of_map_runFrom (fun c => (c.daemon.procTable 2).callbacks) hc (by decide)
  have hcount : c.ncallbacks 2 = -1 := eq_of_map_runFrom (fun c => c.ncallbacks 2) hc (by decide)
  refine ⟨c, hreach, eq_of_map_runFrom (fun c => c.daemon.fate) hc (by decide), hqueue, hcount,
    fun hexact => ?_⟩
  have hlength := hexact.ncallbacks 2
  rw [hcount, hqueue] at hlength
  cases hlength

end Comsg.Proofs.Coeventd
