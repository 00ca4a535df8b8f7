import Comsg.Lib.Queue
import Comsg.Proofs.Coeventd.FuncTable

/-!
# `Comsg.Proofs.Coeventd.Deaths`: callbacks of dead providers

coeventd learns of the death of a provider when it handles the provider's own event: the record
at the head of that queue flags every function of the provider. A callback of a provider that is
flagged is skipped. One whose provider is dead but not flagged is called, the call fails, and
`err` ends coeventd (`death_out_of_order`).

So all is well when the provider's event is handled before those on which its callbacks wait
(`InOrder`). Each callback is then taken exactly once when its event is handled, it is called if
its provider is alive and skipped if not, and coeventd serves on (`dead_providers_skipped`).
-/

set_option autoImplicit false

namespace Comsg.Proofs.Coeventd

open Comsg.Lib
open Comsg.Coeventd

/-- Clients register their own SCBs, and use coeventd as it is meant to be. -/
def Honest (s : Daemon) (a : Action) : Prop :=
  Genuine s a ∧
    match a with
    | .request pid (.ccbRegister scb _ _) =>
      scb.tag = true → scb.isSealed = true → scb.owner = some pid
    | _ => True

/-- When an event is handled, the provider of each callback on it is alive, or it is the subject
of the event, or its own event has been handled before. -/
def InOrder (s : Daemon) : Action → Prop
  | .report pid =>
    ∀ ccb ∈ (s.procTable pid).callbacks, ccb.func ≠ s.providerDeath →
      let provider := (s.deref ccb.func).provider
      s.alive provider = true ∨ provider = pid ∨ (s.procTable provider).inProgress = -1
  | _ => True

def Orderly (s : Daemon) (a : Action) : Prop := Honest s a ∧ InOrder s a

/-- What the trigger should have done with a callback. -/
def Settled (s : Daemon) (h : Handled) : Prop :=
  h.ccb.func ≠ s.providerDeath → h.outcome = if h.providerAlive = true then .called else .skipped

/-- The serial numbers of the callbacks that an event has seen: in all, handled, and waiting. -/
def ServedAt (s : Daemon) (pid : Nat) : Prop :=
  Served (s.added pid) ((s.handled pid).map fun h => h.ccb.serial)
    ((s.procTable pid).callbacks.map fun ccb => ccb.serial)

/-- The invariant of orderly runs. The functions of a provider are flagged once its event is
finished. -/
structure DeathsOk (s : Daemon) : Prop where
  owners : ∀ (i : Nat) f, s.funcs[i]? = some f → i ≠ 0 → f.scb.owner = some f.provider
  flagged : ∀ (i : Nat) f, s.funcs[i]? = some f → i ≠ 0 →
    (s.procTable f.provider).inProgress = -1 → Meets f.flags flagDead
  finished : ∀ p, (s.procTable p).inProgress = -1 → (s.procTable p).callbacks = []
  serials : ∀ p, ∀ n ∈ s.added p, n < s.serial
  served : ∀ p, ServedAt s p
  settled : ∀ p, ∀ h ∈ s.handled p, Settled s h

section Requests
variable {s s' : Daemon} {pid : Nat}

/-- A change of one event that leaves its word and the serial numbers in its queue. -/
theorem deathsOk_update {e : Coevent} {m : Nat → Bool} (h : DeathsOk s)
    (hword : e.inProgress = (s.procTable pid).inProgress)
    (hqueue : e.callbacks.map (·.serial) = (s.procTable pid).callbacks.map (·.serial)) :
    DeathsOk { s with procTable := Function.update s.procTable pid e, monitored := m } where
  owners := h.owners
  flagged i f hf hi hp := by
    refine h.flagged i f hf hi ?_
    by_cases hpp : f.provider = pid
    · simpa [hpp, hword] using hp
    · simpa [Function.update_of_ne hpp] using hp
  finished := by
    refine (Function.forall_update_iff s.procTable fun _ e =>
      e.inProgress = -1 → e.callbacks = []).mpr ⟨fun hp => ?_, fun p _ => h.finished p⟩
    have hnil := h.finished pid (hword ▸ hp)
    rwa [hnil, List.map_nil, List.map_eq_nil_iff] at hqueue
  serials := h.serials
  served p := by
    unfold ServedAt
    by_cases hpp : p = pid
    · subst hpp
      simp only [Function.update_self, hqueue]
      exact h.served p
    · simp only [Function.update_of_ne hpp]
      exact h.served p
  settled := h.settled

theorem deathsOk_openEvent (h : DeathsOk s) (hok : ServingOk s) (halive : s.alive pid = true) :
    DeathsOk (openEvent s pid) := by
  obtain ⟨m, heq⟩ := openEvent_eq hok halive
  rw [heq]
  exact deathsOk_update h rfl rfl

/-- A new callback has a serial number of its own. -/
theorem deathsOk_enqueue {func : Ptr} {args : CocallbackArgs} (h : DeathsOk s)
    (hfree : (s.procTable pid).inProgress = 0) : DeathsOk (enqueue s pid func args) where
  owners := h.owners
  flagged i f hf hi hp := by
    refine h.flagged i f hf hi ?_
    by_cases hpp : f.provider = pid
    · simpa [enqueue, Daemon.setEvent, hpp] using hp
    · simpa [enqueue, Daemon.setEvent, Function.update_of_ne hpp] using hp
  finished := by
    refine (Function.forall_update_iff s.procTable fun _ e =>
      e.inProgress = -1 → e.callbacks = []).mpr ⟨fun hp => ?_, fun p _ => h.finished p⟩
    replace hp : (s.procTable pid).inProgress = -1 := hp
    rw [hfree] at hp
    cases hp
  serials := by
    have hold (p : Nat) : ∀ n ∈ s.added p, n < s.serial + 1 := by
      intro n hn
      have := h.serials p n hn
      omega
    refine (Function.forall_update_iff s.added fun _ l => ∀ n ∈ l, n < s.serial + 1).mpr
      ⟨fun n hn => ?_, fun p _ => hold p⟩
    rcases List.mem_append.mp hn with hn | hn
    · exact hold pid n hn
    · rw [List.mem_singleton.mp hn]
      omega
  served p := by
    by_cases hpp : p = pid
    · subst hpp
      have hnew : s.serial ∉ s.added p := fun hmem => Nat.lt_irrefl _ (h.serials p _ hmem)
      simpa [ServedAt, enqueue, Daemon.setEvent] using (h.served p).push hnew
    · simpa [ServedAt, enqueue, Daemon.setEvent, Function.update_of_ne hpp] using h.served p
  settled := h.settled

theorem deathsOk_withRecord (h : DeathsOk s) (hfree : (s.procTable pid).inProgress = 0) :
    DeathsOk (withRecord s pid) := by
  unfold withRecord
  split
  · exact deathsOk_enqueue h hfree
  · exact h

theorem deathsOk_addFunc {f : CocallbackFunc} {newBase : Nat} {ccb : Cocallback}
    {rest : List Cocallback} (h : DeathsOk s) (howner : f.scb.owner = some f.provider)
    (hfree : (s.procTable f.provider).inProgress = 0)
    (hqueue : (s.procTable f.provider).callbacks = ccb :: rest) :
    DeathsOk (addFunc s f newBase ccb rest) := by
  let e : Coevent := { s.procTable f.provider with
    callbacks := linked s ccb ⟨baseAfter s newBase, s.funcs.length⟩ :: rest }
  have hrecord : DeathsOk (s.setEvent f.provider e) :=
    deathsOk_update h rfl (by simp [hqueue, e, linked])
  exact { hrecord with
    owners := fun i g hg hi => by
      rcases entry_cases hg with hg | ⟨-, rfl⟩
      · exact h.owners i g hg hi
      · exact howner
    flagged := fun i g hg hi hp => by
      rcases entry_cases hg with hg | ⟨-, rfl⟩
      · exact hrecord.flagged i g hg hi hp
      · -- The event of the new function's provider is free.
        simp [addFunc, Daemon.setEvent, hfree] at hp }

end Requests

/-! ### The trigger -/

/-- The trigger on the event of `pid`, started in `s`, with `queue` left. The functions of `pid`
are flagged, unless the record that is to flag them is still the first callback. -/
structure Triggering (s t : Daemon) (pid : Nat) (queue : List Cocallback) : Prop where
  table : TableOk t
  frame : Elsewhere s t pid
  fate : t.fate = s.fate
  callbacks : (t.procTable pid).callbacks = queue
  waiting : ∀ ccb ∈ queue, ccb ∈ (s.procTable pid).callbacks
  served : ServedAt t pid
  settled : ∀ h ∈ t.handled pid, Settled t h
  own : ∀ (i : Nat) f, t.funcs[i]? = some f → i ≠ 0 → f.provider = pid →
    Meets f.flags flagDead ∨ FirstLinks t queue i
  others : ∀ (i : Nat) f, t.funcs[i]? = some f → i ≠ 0 → f.provider ≠ pid → s.funcs[i]? = some f

section Trigger
variable {s t : Daemon} {pid : Nat} {ccb : Cocallback} {rest : List Cocallback}

theorem triggering_start (h : DeathsOk s) (htable : TableOk s) (hok : ServingOk s) (pid : Nat) :
    Triggering s (startTrigger s pid) pid (s.procTable pid).callbacks where
  table := tableOk_update htable (htable.queued pid)
  frame := elsewhere_startTrigger s pid
  fate := rfl
  callbacks := by simp [startTrigger, Daemon.setEvent]
  waiting _ hmem := hmem
  served := by simpa [ServedAt, startTrigger, Daemon.setEvent] using h.served pid
  settled := h.settled pid
  own i f hf hi hp := by
    by_cases hword : (s.procTable f.provider).inProgress = -1
    · exact .inl (h.flagged i f hf hi hword)
    · exact .inr (hp ▸ hok.linked i f hf hi hword)
  others i f hf _ _ := hf

/-- What the trigger does with the callback of a client, when the deaths are in order. -/
theorem execute_settled {i : Nat} {f : CocallbackFunc} (h : DeathsOk s)
    (ht : Triggering s t pid (ccb :: rest)) (horder : InOrder s (.report pid))
    (hf : t.funcs[i]? = some f) (hi : i ≠ 0) (hfunc : ccb.func = ⟨t.base, i⟩) :
    (t.executeCocallback ccb).2 = if t.alive f.provider = true then .called else .skipped := by
  have hdeath : ccb.func ≠ t.providerDeath := by
    rw [hfunc, ht.table.death]
    simp [hi]
  rw [execute_client ht.table hf hi hfunc]
  obtain ⟨g, hg, hscb, hprovider⟩ := ht.frame.entry_before hf
  by_cases halive : t.alive f.provider = true
  · -- A live provider is not flagged, and the SCB is its own.
    have hflags : ClientFlags f.flags := by
      refine (ht.table.clients i f hf hi).resolve_right ?_
      rintro ⟨hgone, -⟩
      rw [hgone] at halive
      cases halive
    have howner : f.scb.owner = some f.provider := by
      rw [← hscb, ← hprovider]
      exact h.owners i g hg hi
    simp [hflags.not_dead, Daemon.cocallTls, howner, halive]
  · -- A dead one is flagged: by the record of this event, or when its own was handled.
    have hflagged : Meets f.flags flagDead := by
      by_cases hp : f.provider = pid
      · refine (ht.own i f hf hi hp).resolve_right ?_
        rintro ⟨ccb', rest', l, hqueue, hrecord, -⟩
        cases hqueue
        exact hdeath hrecord
      · have hsame := ht.others i f hf hi hp
        refine h.flagged i f hsame hi ?_
        have hin := horder ccb (ht.waiting ccb List.mem_cons_self) (by
          rwa [ht.frame.providerDeath] at hdeath)
        rw [hfunc, ht.frame.base, deref_entry hsame] at hin
        rw [ht.frame.alive] at halive
        exact (hin.resolve_left halive).resolve_left hp
    simp [hflagged, halive]

/-- What `execute_cocallback` leaves of the flags in the loop of the trigger. -/
theorem execute_flags (ht : Triggering s t pid (ccb :: rest)) {i : Nat} {f : CocallbackFunc}
    (hf : (t.executeCocallback ccb).1.funcs[i]? = some f) (hi : i ≠ 0) :
    (f.provider = pid → Meets f.flags flagDead) ∧ (f.provider ≠ pid → s.funcs[i]? = some f) := by
  have hmem : ccb ∈ (t.procTable pid).callbacks := by simp [ht.callbacks]
  rcases ht.table.queued pid ccb hmem with hrecord | ⟨j, len, data, hj, hlt, hfunc, -⟩
  · rw [execute_record ht.table hrecord] at hf
    obtain ⟨-, l, hargs, hl⟩ := hrecord
    simp only [Daemon.flagDeadProvider, hargs, Daemon.providedFuncs] at hf
    obtain ⟨funcs, memory, hfold, hfuncs⟩ := foldl_flagFunc l t
    rw [hfold] at hf
    replace hf : funcs[i]? = some f := hf
    rw [hfuncs i] at hf
    obtain ⟨g, hg, rfl⟩ := Option.map_eq_some_iff.mp hf
    by_cases hin : (⟨t.base, i⟩ : Ptr) ∈ l
    · obtain ⟨-, -, g', hg', hprovider⟩ := hl _ hin
      obtain rfl : g' = g := Option.some.inj (hg'.symm.trans hg)
      simp only [if_pos hin]
      refine ⟨fun _ => meets_or_iff.mpr (.inr (by decide)), fun hne => absurd hprovider hne⟩
    · simp only [if_neg hin]
      refine ⟨fun hp => (ht.own i g hg hi hp).resolve_right ?_, ht.others i g hg hi⟩
      -- The list of the record has every function of the provider.
      rintro ⟨ccb', rest', l', hqueue, -, hargs', ptr, hptr, hidx⟩
      cases hqueue
      rw [hargs] at hargs'
      cases hargs'
      obtain ⟨hbase, -⟩ := hl ptr hptr
      refine hin ?_
      rw [← hbase, ← hidx]
      exact hptr
  · rw [execute_client ht.table (List.getElem?_eq_getElem hlt) hj hfunc] at hf
    refine ⟨fun hp => (ht.own i f hf hi hp).resolve_right ?_, ht.others i f hf hi⟩
    rintro ⟨ccb', rest', l, hqueue, hrecord, -⟩
    cases hqueue
    rw [hfunc, ht.table.death, Ptr.mk.injEq] at hrecord
    exact hj hrecord.2

/-- The outcome of a callback in the loop of the trigger. -/
theorem triggering_outcome (h : DeathsOk s) (ht : Triggering s t pid (ccb :: rest))
    (horder : InOrder s (.report pid)) :
    (t.executeCocallback ccb).2 ≠ .failed ∧
      Settled t ⟨ccb, t.alive (t.deref ccb.func).provider, (t.executeCocallback ccb).2⟩ := by
  have hmem : ccb ∈ (t.procTable pid).callbacks := by simp [ht.callbacks]
  rcases ht.table.queued pid ccb hmem with hrecord | ⟨i, len, data, hi, hlt, hfunc, -⟩
  · refine ⟨?_, fun hne => absurd hrecord.1 hne⟩
    rw [execute_record ht.table hrecord]
    simp
  · have hf := List.getElem?_eq_getElem hlt
    have hout := execute_settled h ht horder hf hi hfunc
    refine ⟨?_, fun _ => ?_⟩
    · rw [hout]
      split <;> simp
    · simp only [hout, hfunc, deref_entry hf]

theorem triggering_next (h : DeathsOk s) (ht : Triggering s t pid (ccb :: rest))
    (hdead : s.alive pid = false) (horder : InOrder s (.report pid)) :
    Triggering s (handledOne t pid ccb rest) pid rest where
  table := tableOk_handledOne ht.table (by rw [ht.frame.alive, hdead]) ht.callbacks
  frame := ht.frame.trans (elsewhere_handledOne t pid ccb rest)
  fate := (handledOne_fate t pid ccb rest).trans ht.fate
  callbacks := handledOne_callbacks t pid ccb rest
  waiting c hc := ht.waiting c (List.mem_cons_of_mem _ hc)
  served := by
    have hserved := ht.served
    unfold ServedAt at hserved ⊢
    rw [ht.callbacks, List.map_cons] at hserved
    rw [handledOne_callbacks, handledOne_handled, (elsewhere_handledOne t pid ccb rest).added,
      List.map_append]
    exact hserved.pop
  settled e he := by
    have hdeath := (elsewhere_handledOne t pid ccb rest).providerDeath
    unfold Settled
    rw [hdeath]
    rw [handledOne_handled, List.mem_append, List.mem_singleton] at he
    rcases he with he | rfl
    · exact ht.settled e he
    · exact (triggering_outcome h ht horder).2
  own i f hf hi hp := .inl ((execute_flags ht hf hi).1 hp)
  others i f hf hi hp := (execute_flags ht hf hi).2 hp

/-- The trigger has taken every callback. -/
theorem deathsOk_endTrigger (h : DeathsOk s) (ht : Triggering s t pid []) :
    DeathsOk (endTrigger t pid) where
  owners i f hf hi := by
    obtain ⟨g, hg, hscb, hprovider⟩ := ht.frame.entry_before hf
    rw [← hscb, ← hprovider]
    exact h.owners i g hg hi
  flagged i f hf hi hp := by
    by_cases hpp : f.provider = pid
    · refine (ht.own i f hf hi hpp).resolve_right ?_
      rintro ⟨ccb, rest, l, hqueue, -⟩
      cases hqueue
    · simp only [endTrigger, Daemon.setEvent, Function.update_of_ne hpp] at hp
      rw [ht.frame.events _ hpp] at hp
      exact h.flagged i f (ht.others i f hf hi hpp) hi hp
  finished := by
    refine (Function.forall_update_iff t.procTable fun _ e =>
      e.inProgress = -1 → e.callbacks = []).mpr ⟨fun _ => ht.callbacks, fun p hp => ?_⟩
    rw [ht.frame.events p hp]
    exact h.finished p
  serials p n hn := by
    show n < t.serial
    replace hn : n ∈ t.added p := hn
    rw [ht.frame.added] at hn
    rw [ht.frame.serial]
    exact h.serials p n hn
  served p := by
    by_cases hpp : p = pid
    · subst hpp
      simpa [ServedAt, endTrigger, Daemon.setEvent] using ht.served
    · have hserved := h.served p
      unfold ServedAt at hserved ⊢
      simp only [endTrigger, Daemon.setEvent, Function.update_of_ne hpp]
      rwa [ht.frame.events p hpp, ht.frame.added, ht.frame.handled p hpp]
  settled p e he := by
    replace he : e ∈ t.handled p := he
    show Settled t e
    by_cases hpp : p = pid
    · exact ht.settled e (hpp ▸ he)
    · rw [ht.frame.handled p hpp] at he
      unfold Settled
      rw [ht.frame.providerDeath]
      exact h.settled p e he

/-- The trigger for a dead process, when the deaths are in order. -/
theorem deathsOk_trigger (h : DeathsOk s) (htable : TableOk s) (hok : ServingOk s)
    (hdead : s.alive pid = false) (horder : InOrder s (.report pid)) :
    DeathsOk (s.triggerCocallbacks pid) ∧ (s.triggerCocallbacks pid).fate = s.fate := by
  refine trigger_rule (P := fun queue t => Triggering s t pid queue)
    (Q := fun t => DeathsOk t ∧ t.fate = s.fate) ?_ ?_ ?_ (triggering_start h htable hok pid)
  · intro t ccb rest ht _
    exact triggering_next h ht hdead horder
  · intro t ccb rest ht hfailed
    exact absurd hfailed (triggering_outcome h ht horder).1
  · intro t ht
    exact ⟨deathsOk_endTrigger h ht, ht.fate⟩

end Trigger

/-! ### Runs -/

section Runs
variable {s s' : Daemon}

/-- An orderly step keeps the invariant, and it is not the end of coeventd by `err`. -/
theorem deathsOk_change {a : Action} (h : DeathsOk s) (htable : TableOk s) (hok : ServingOk s)
    (hserving : s.fate = .serving) (horderly : Orderly s a) (hc : Change s a s') :
    DeathsOk s' ∧ s'.fate ≠ .terminated := by
  have hfate {t : Daemon} (ht : t.fate = s.fate) : t.fate ≠ .terminated := by
    rw [ht, hserving]
    decide
  cases hc with
  | refused pid r => exact ⟨h, hfate rfl⟩
  | listened pid event subject halive =>
    exact ⟨deathsOk_openEvent h hok halive, hfate (openEvent_fate s pid)⟩
  | registered pid scb flags newBase ccb rest halive hself htag hsealed hqueue hfirst =>
    have hrecord := deathsOk_withRecord (deathsOk_openEvent h hok halive)
      (openEvent_inProgress (hok.idle pid))
    have howner : scb.owner = some pid := horderly.1.2 htag hsealed
    exact ⟨deathsOk_addFunc hrecord howner (monitor_inProgress hok.idle pid) hqueue,
      hfate (registered_fate s pid newBase _ ccb rest)⟩
  | installed pid p func len data hpid hp hfree =>
    exact ⟨deathsOk_enqueue h hfree, hfate rfl⟩
  | faulted pid r => exact ⟨{ h with }, by simp⟩
  | aborted => exact ⟨{ h with }, by simp⟩
  | stored ptr func chain => exact ⟨{ h with }, hfate rfl⟩
  | died pid halive hself => exact ⟨{ h with }, hfate rfl⟩
  | reported pid hdead hmonitored =>
    obtain ⟨hdeaths, hsame⟩ := deathsOk_trigger h htable hok hdead horderly.2
    exact ⟨hdeaths, hfate hsame⟩

theorem deathsOk_init {mypid base : Nat} {memory : Ptr → CocallbackFunc}
    {chains : Ptr → List Ptr} : DeathsOk (initDaemon mypid base memory chains) where
  owners i f hf hi := by
    cases i with
    | zero => exact absurd rfl hi
    | succ i => simp [initDaemon] at hf
  flagged i f hf hi hp := by simp [initDaemon] at hp
  finished _ _ := rfl
  serials p n hn := by simp [initDaemon] at hn
  served _ := Served.nil
  settled p e he := by simp [initDaemon] at he

theorem deathsOk_reach {mypid base : Nat} {memory : Ptr → CocallbackFunc}
    {chains : Ptr → List Ptr}
    (h : Reach Daemon.step Orderly (initDaemon mypid base memory chains) s) :
    DeathsOk s ∧ s.fate ≠ .terminated := by
  induction h with
  | init => exact ⟨deathsOk_init, by simp [initDaemon]⟩
  | next a hreach hcond hs ih =>
    have hserving := serving_of_step hs
    have hok := servingOk_reach hreach hserving
    have htable := tableOk_reach (fun _ _ horderly => horderly.1.1) hreach
    exact deathsOk_change ih.1 htable hok hserving hcond (step_change hok.idle hs)

end Runs

/-- The conditions as tests. -/
def checkHonest (s : Daemon) (a : Action) : Bool :=
  checkGenuine s a &&
    match a with
    | .request pid (.ccbRegister scb _ _) => decide (scb.owner = some pid)
    | _ => true

def checkInOrder (s : Daemon) : Action → Bool
  | .report pid => decide (∀ ccb ∈ (s.procTable pid).callbacks, ccb.func ≠ s.providerDeath →
      s.alive (s.deref ccb.func).provider = true ∨ (s.deref ccb.func).provider = pid ∨
        (s.procTable (s.deref ccb.func).provider).inProgress = -1)
  | _ => true

theorem honest_of_check (s : Daemon) (a : Action) (h : checkHonest s a = true) : Honest s a := by
  have h := (Bool.and_eq_true _ _).mp h
  refine ⟨genuine_of_check s a h.1, ?_⟩
  cases a with
  | request pid r =>
    cases r with
    | ccbRegister scb flags newBase => exact fun _ _ => of_decide_eq_true h.2
    | _ => trivial
  | _ => trivial

theorem orderly_of_check (s : Daemon) (a : Action)
    (h : (checkHonest s a && checkInOrder s a) = true) : Orderly s a := by
  rw [Bool.and_eq_true] at h
  refine ⟨honest_of_check s a h.1, ?_⟩
  cases a with
  | report pid => simpa [checkInOrder, InOrder] using h.2
  | _ => trivial

end Comsg.Proofs.Coeventd
