import Comsg.Proofs.Coeventd.Effect

/-!
# `Comsg.Proofs.Coeventd.Records`: the record of a provider

The first callback in the queue of a provider is the record that coeventd makes for it, and every
function that the provider has registered is in the list of the record (`ServingOk.linked`). This
holds while coeventd serves and the event is not finished, since `add_func_to_provider` asserts
it.

The assertion fails when somebody has installed a callback on the event of a process before that
process registers its first function: the queue is not empty then, and no record is made
(`late_register_aborts`). Otherwise it never fails (`provider_record_first`).
-/

set_option autoImplicit false

namespace Comsg.Proofs.Coeventd

open Comsg.Lib
open Comsg.Coeventd

/-- The first callback of the queue is the record of a provider, and its list has the entry
`i`. -/
def FirstLinks (s : Daemon) (queue : List Cocallback) (i : Nat) : Prop :=
  ∃ ccb rest l, queue = ccb :: rest ∧ ccb.func = s.providerDeath ∧ ccb.args = .provided l ∧
    ∃ ptr ∈ l, ptr.idx = i

/-- What holds while coeventd serves. Entry 0 of the table is coeventd's own. -/
structure ServingOk (s : Daemon) : Prop where
  idle : Idle s
  finished_dead : ∀ p, (s.procTable p).inProgress = -1 → s.alive p = false
  set_up : ∀ p, (s.procTable p).cePid ≠ p → (s.procTable p).callbacks = []
  internal : ∃ f, s.funcs[0]? = some f ∧ f.provider = s.mypid
  linked : ∀ (i : Nat) f, s.funcs[i]? = some f → i ≠ 0 →
    (s.procTable f.provider).inProgress ≠ -1 →
    FirstLinks s (s.procTable f.provider).callbacks i

section Serving
variable {s s' : Daemon} {pid : Nat}

/-- The event of a live process is free. -/
theorem ServingOk.free (h : ServingOk s) (halive : s.alive pid = true) :
    (s.procTable pid).inProgress = 0 := by
  refine (h.idle pid).resolve_right fun hfinished => ?_
  rw [h.finished_dead pid hfinished] at halive
  cases halive

/-- The event of a live process is set up. Its queue stays as it was. -/
theorem openEvent_eq (h : ServingOk s) (halive : s.alive pid = true) :
    ∃ m, openEvent s pid = { s with
      procTable := Function.update s.procTable pid { s.procTable pid with cePid := pid }
      monitored := m } := by
  have hfree := h.free halive
  unfold openEvent
  by_cases hpid : (s.procTable pid).cePid = pid
  · refine ⟨s.monitored, ?_⟩
    rw [if_neg (by simp [hpid, hfree])]
    have hsame (e : Coevent) (he : e.cePid = pid) : { e with cePid := pid } = e := by
      subst he
      rfl
    rw [hsame _ hpid, Function.update_eq_self]
  · refine ⟨Function.update s.monitored pid true, ?_⟩
    rw [if_pos (.inl hpid)]
    have hqueue := h.set_up pid hpid
    simp [Daemon.setEvent, hqueue, hfree]

/-- A change of one event that leaves its word, and keeps its queue at the head. -/
theorem servingOk_update {e : Coevent} {m : Nat → Bool} {n : Nat} {added : Nat → List Nat}
    (h : ServingOk s) (hword : e.inProgress = (s.procTable pid).inProgress)
    (hset : e.cePid ≠ pid → e.callbacks = [])
    (hqueue : ∀ i, FirstLinks s (s.procTable pid).callbacks i → FirstLinks s e.callbacks i) :
    ServingOk { s with
      procTable := Function.update s.procTable pid e
      monitored := m
      serial := n
      added := added } where
  idle := by
    refine (Function.forall_update_iff s.procTable fun _ e =>
      e.inProgress = 0 ∨ e.inProgress = -1).mpr ⟨?_, fun p _ => h.idle p⟩
    rw [hword]
    exact h.idle pid
  finished_dead := by
    refine (Function.forall_update_iff s.procTable fun p e =>
      e.inProgress = -1 → s.alive p = false).mpr ⟨?_, fun p _ => h.finished_dead p⟩
    rw [hword]
    exact h.finished_dead pid
  set_up :=
    (Function.forall_update_iff s.procTable fun p e => e.cePid ≠ p → e.callbacks = []).mpr
      ⟨hset, fun p _ => h.set_up p⟩
  internal := h.internal
  linked i f hf hi hword' := by
    show FirstLinks s (Function.update s.procTable pid e f.provider).callbacks i
    by_cases hp : f.provider = pid
    · rw [hp, Function.update_self]
      refine hqueue i ?_
      rw [← hp]
      refine h.linked i f hf hi ?_
      simpa [hp, hword] using hword'
    · rw [Function.update_of_ne hp]
      exact h.linked i f hf hi (by simpa [Function.update_of_ne hp] using hword')

theorem servingOk_openEvent (h : ServingOk s) (halive : s.alive pid = true) :
    ServingOk (openEvent s pid) := by
  obtain ⟨m, heq⟩ := openEvent_eq h halive
  rw [heq]
  exact servingOk_update h rfl (fun hne => absurd rfl hne) fun i hi => hi

theorem servingOk_enqueue {func : Ptr} {args : CocallbackArgs} (h : ServingOk s)
    (hpid : (s.procTable pid).cePid = pid) : ServingOk (enqueue s pid func args) := by
  refine servingOk_update h rfl (fun hne => absurd hpid hne) fun i hi => ?_
  obtain ⟨ccb, rest, l, hqueue, hfirst⟩ := hi
  exact ⟨ccb, rest ++ [⟨s.serial, func, args⟩], l, by simp [hqueue], hfirst⟩

theorem servingOk_withRecord (h : ServingOk s) (hpid : (s.procTable pid).cePid = pid) :
    ServingOk (withRecord s pid) := by
  unfold withRecord
  split
  · exact servingOk_enqueue h hpid
  · exact h

/-- A new entry of the table that the record of its provider has. -/
theorem servingOk_newEntry {f : CocallbackFunc} {base tblLen : Nat} (h : ServingOk s)
    (hlinks : FirstLinks s (s.procTable f.provider).callbacks s.funcs.length) :
    ServingOk { s with base := base, tblLen := tblLen, funcs := s.funcs ++ [f] } :=
  { h with
    internal := by
      obtain ⟨g, hg, hprovider⟩ := h.internal
      exact ⟨g, entry_append hg, hprovider⟩
    linked := fun i g hg hi hword => by
      rcases entry_cases hg with hg | ⟨rfl, rfl⟩
      · exact h.linked i g hg hi hword
      · exact hlinks }

theorem servingOk_addFunc {f : CocallbackFunc} {newBase : Nat} {ccb : Cocallback}
    {rest : List Cocallback} (h : ServingOk s) (hpid : (s.procTable f.provider).cePid = f.provider)
    (hqueue : (s.procTable f.provider).callbacks = ccb :: rest)
    (hfirst : ccb.func = s.providerDeath) : ServingOk (addFunc s f newBase ccb rest) := by
  let ptr : Ptr := ⟨baseAfter s newBase, s.funcs.length⟩
  let e : Coevent := { s.procTable f.provider with callbacks := linked s ccb ptr :: rest }
  -- The record goes first, then the entry it has been given.
  have hrecord : ServingOk (s.setEvent f.provider e) := by
    refine servingOk_update h rfl (fun hne => absurd hpid hne) fun i hi => ?_
    obtain ⟨ccb', rest', l, hq, hfunc, hargs, q, hq', hidx⟩ := hi
    obtain ⟨rfl, rfl⟩ : ccb' = ccb ∧ rest' = rest := by
      rw [hqueue] at hq
      cases hq
      exact ⟨rfl, rfl⟩
    refine ⟨linked s ccb' ptr, rest', ptr :: l, rfl, hfunc, ?_, q, List.mem_cons_of_mem _ hq', hidx⟩
    simp [linked, hargs, Daemon.providedFuncs]
  refine servingOk_newEntry hrecord ⟨linked s ccb ptr, rest, ptr :: s.providedFuncs ccb.args, ?_,
    hfirst, rfl, ptr, List.mem_cons_self, rfl⟩
  simp [Daemon.setEvent, ptr]

/-- The event of a live process after `monitor_provider`. -/
theorem servingOk_monitor (h : ServingOk s) (halive : s.alive pid = true) :
    ServingOk (withRecord (openEvent s pid) pid) ∧
      ((withRecord (openEvent s pid) pid).procTable pid).cePid = pid := by
  have hpid : ((openEvent s pid).procTable pid).cePid = pid := by
    obtain ⟨m, heq⟩ := openEvent_eq h halive
    simp [heq]
  refine ⟨servingOk_withRecord (servingOk_openEvent h halive) hpid, ?_⟩
  unfold withRecord
  split
  · simpa [enqueue, Daemon.setEvent] using hpid
  · exact hpid

/-- The event of a dead process is finished, and nothing else has changed but flags. -/
theorem servingOk_finished (h : ServingOk s) (hdead : s.alive pid = false)
    (helse : Elsewhere s s' pid)
    (hevent : s'.procTable pid = ⟨(s.procTable pid).cePid, -1, []⟩) : ServingOk s' where
  idle p := by
    by_cases hp : p = pid
    · rw [hp, hevent]
      exact .inr rfl
    · rw [helse.events p hp]
      exact h.idle p
  finished_dead p hp := by
    rw [helse.alive]
    by_cases hpp : p = pid
    · rw [hpp, hdead]
    · rw [helse.events p hpp] at hp
      exact h.finished_dead p hp
  set_up p hp := by
    by_cases hpp : p = pid
    · rw [hpp, hevent]
    · rw [helse.events p hpp] at hp ⊢
      exact h.set_up p hp
  internal := by
    obtain ⟨g, hg, hprovider⟩ := h.internal
    obtain ⟨f, hf, -, hsame⟩ := helse.entry hg
    exact ⟨f, hf, by rw [hsame, hprovider, helse.mypid]⟩
  linked i f hf hi hword := by
    by_cases hp : f.provider = pid
    · rw [hp, hevent] at hword
      exact absurd rfl hword
    · rw [helse.events _ hp] at hword ⊢
      obtain ⟨g, hg, -, hprovider⟩ := helse.entry_before hf
      have hlinks := h.linked i g hg hi (by rwa [hprovider])
      rw [hprovider] at hlinks
      obtain ⟨ccb, rest, l, hq, hfunc, hrest⟩ := hlinks
      exact ⟨ccb, rest, l, hq, hfunc.trans helse.providerDeath.symm, hrest⟩

/-- A step keeps all this as long as coeventd serves. -/
theorem servingOk_change {a : Action} (h : ServingOk s) (hc : Change s a s')
    (hserving : s'.fate = .serving) : ServingOk s' := by
  cases hc with
  | refused pid r => exact h
  | listened pid event subject halive => exact servingOk_openEvent h halive
  | registered pid scb flags newBase ccb rest halive hself htag hsealed hqueue hfirst =>
    obtain ⟨hok, hpid⟩ := servingOk_monitor h halive
    refine servingOk_addFunc hok hpid hqueue ?_
    obtain ⟨t, m, n, added, heq⟩ := monitor_kept s pid
    rw [hfirst, heq]
  | installed pid p func len data hpid hp hfree => exact servingOk_enqueue h hpid
  | faulted pid r => cases hserving
  | aborted => cases hserving
  | stored ptr func chain => exact { h with }
  | died pid halive hself =>
    refine { h with finished_dead := fun p hp => ?_ }
    show Function.update s.alive pid false p = false
    by_cases hpp : p = pid
    · rw [hpp, Function.update_self]
    · rw [Function.update_of_ne hpp]
      exact h.finished_dead p hp
  | reported pid hdead hmonitored =>
    obtain ⟨helse, ⟨-, hevent⟩ | hterminated⟩ := trigger_elsewhere s pid
    · exact servingOk_finished h hdead helse hevent
    · rw [hterminated] at hserving
      cases hserving

theorem servingOk_init {mypid base : Nat} {memory : Ptr → CocallbackFunc}
    {chains : Ptr → List Ptr} : ServingOk (initDaemon mypid base memory chains) where
  idle _ := .inl rfl
  finished_dead p hp := by simp [initDaemon] at hp
  set_up _ _ := rfl
  internal := ⟨_, rfl, rfl⟩
  linked i f hf hi := by
    cases i with
    | zero => exact absurd rfl hi
    | succ i => simp [initDaemon] at hf

/-- As long as coeventd serves, it keeps its records. -/
theorem servingOk_reach {ok : Daemon → Action → Prop} {mypid base : Nat}
    {memory : Ptr → CocallbackFunc} {chains : Ptr → List Ptr}
    (h : Reach Daemon.step ok (initDaemon mypid base memory chains) s)
    (hserving : s.fate = .serving) : ServingOk s := by
  induction h with
  | init => exact servingOk_init
  | next a _ _ hs ih =>
    have hok := ih (serving_of_step hs)
    exact servingOk_change hok (step_change hok.idle hs) hserving

end Serving

/-! ### The assertion of `add_func_to_provider` -/

/-- The first function that a process registers comes before every callback on its event. -/
def RegistersFirst (s : Daemon) : Action → Prop
  | .request pid (.ccbRegister scb _ _) =>
    scb.tag = true → scb.isSealed = true → (∀ f ∈ s.funcs, f.provider ≠ pid) →
      (s.procTable pid).callbacks = []
  | _ => True

section Assertion
variable {s : Daemon} {pid : Nat}

/-- The queue of a provider starts with its record when a function is registered. -/
theorem first_is_record {ccb : Cocallback} {rest : List Cocallback} (h : ServingOk s)
    (halive : s.alive pid = true) (hself : pid ≠ s.mypid)
    (hfirst : (∀ f ∈ s.funcs, f.provider ≠ pid) → (s.procTable pid).callbacks = [])
    (hqueue : ((withRecord (openEvent s pid) pid).procTable pid).callbacks = ccb :: rest) :
    ccb.func = s.providerDeath := by
  obtain ⟨m, heq⟩ := openEvent_eq h halive
  have hsame : ((openEvent s pid).procTable pid).callbacks = (s.procTable pid).callbacks := by
    simp [heq]
  unfold withRecord at hqueue
  split at hqueue
  · rename_i hempty
    -- The record has just been made.
    simp only [enqueue, Daemon.setEvent, Function.update_self, hempty, List.nil_append,
      List.cons.injEq] at hqueue
    rw [← hqueue.1, heq]
  · rename_i hne
    rw [hsame] at hqueue hne
    -- There are callbacks already, so a function has been registered before.
    obtain ⟨f, hf, hprovider⟩ : ∃ f ∈ s.funcs, f.provider = pid := by
      by_contra hnone
      exact hne (hfirst fun f hf hprovider => hnone ⟨f, hf, hprovider⟩)
    obtain ⟨i, hi⟩ := List.mem_iff_getElem?.mp hf
    have hi0 : i ≠ 0 := by
      rintro rfl
      obtain ⟨g, hg, hown⟩ := h.internal
      rw [hg, Option.some.injEq] at hi
      exact hself (by rw [← hprovider, ← hi, hown])
    have hfree : (s.procTable f.provider).inProgress ≠ -1 := by
      rw [hprovider, h.free halive]
      decide
    obtain ⟨ccb', rest', l, hq, hfunc, -⟩ := h.linked i f hi hi0 hfree
    rw [hprovider, hqueue] at hq
    cases hq
    exact hfunc

/-- An assertion fails only in `add_func_to_provider`. -/
theorem aborted_cases {s' : Daemon} {a : Action} (hserving : s.fate = .serving)
    (hc : Change s a s') (haborted : s'.fate = .aborted) :
    ∃ pid scb flags newBase ccb rest, a = .request pid (.ccbRegister scb flags newBase) ∧
      s.alive pid = true ∧ pid ≠ s.mypid ∧ scb.tag = true ∧ scb.isSealed = true ∧
      ((withRecord (openEvent s pid) pid).procTable pid).callbacks = ccb :: rest ∧
      ccb.func ≠ s.providerDeath := by
  cases hc with
  | aborted pid scb flags newBase ccb rest halive hself htag hsealed hqueue hfirst =>
    exact ⟨pid, scb, flags, newBase, ccb, rest, rfl, halive, hself, htag, hsealed, hqueue, hfirst⟩
  | refused | stored | died =>
    rw [hserving] at haborted
    cases haborted
  | faulted pid r => cases haborted
  | listened pid event subject halive =>
    rw [openEvent_fate, hserving] at haborted
    cases haborted
  | registered pid scb flags newBase ccb rest =>
    rw [registered_fate, hserving] at haborted
    cases haborted
  | installed pid p func len data hpid hp hfree =>
    have hsame : (enqueue s p func (.data len data)).fate = s.fate := rfl
    rw [hsame, hserving] at haborted
    cases haborted
  | reported pid hdead hmonitored =>
    obtain ⟨-, ⟨hsame, -⟩ | hterminated⟩ := trigger_elsewhere s pid
    · rw [hsame, hserving] at haborted
      cases haborted
    · rw [hterminated] at haborted
      cases haborted

/-- When each process registers its first function before a callback is installed on its event,
the assertion of `add_func_to_provider` never fails. Each function is in the list of the record
of its provider, and a request to register one is answered with the function, first in that
list. -/
theorem provider_record_first {mypid base : Nat} {memory : Ptr → CocallbackFunc}
    {chains : Ptr → List Ptr}
    (h : Reach Daemon.step RegistersFirst (initDaemon mypid base memory chains) s) :
    s.fate ≠ .aborted ∧
    (s.fate = .serving → ∀ (i : Nat) f, s.funcs[i]? = some f → i ≠ 0 →
      (s.procTable f.provider).inProgress ≠ -1 →
      FirstLinks s (s.procTable f.provider).callbacks i) ∧
    ∀ pid scb flags newBase, s.fate = .serving → s.alive pid = true → pid ≠ s.mypid →
      scb.tag = true → scb.isSealed = true →
      RegistersFirst s (.request pid (.ccbRegister scb flags newBase)) →
      ∃ s' func ccb rest l, s.handle pid (.ccbRegister scb flags newBase) = .ok (s', .func func) ∧
        (s'.procTable pid).callbacks = ccb :: rest ∧ ccb.func = s'.providerDeath ∧
        ccb.args = .provided (func :: l) := by
  refine ⟨?_, fun hserving => (servingOk_reach h hserving).linked, ?_⟩
  · cases h with
    | init => simp [initDaemon]
    | next a hreach hcond hs =>
      have hserving := serving_of_step hs
      have hok := servingOk_reach hreach hserving
      intro haborted
      obtain ⟨pid, scb, flags, newBase, ccb, rest, rfl, halive, hself, htag, hsealed, hqueue,
        hne⟩ := aborted_cases hserving (step_change hok.idle hs) haborted
      exact hne (first_is_record hok halive hself (hcond htag hsealed) hqueue)
  · intro pid scb flags newBase hserving halive hself htag hsealed hcond
    have hok := servingOk_reach h hserving
    obtain ⟨ccb, rest, hqueue⟩ := withRecord_queue (openEvent s pid) pid
    have hfirst := first_is_record hok halive hself (hcond htag hsealed) hqueue
    have hhandle : s.handle pid (.ccbRegister scb flags newBase) = _ :=
      cocallbackRegister_eq hok.idle htag hsealed hqueue
    rw [if_neg (not_not.mpr hfirst)] at hhandle
    generalize ht : withRecord (openEvent s pid) pid = t at hhandle
    have hdeath : t.providerDeath = s.providerDeath := by
      obtain ⟨u, m, n, added, heq⟩ := monitor_kept s pid
      rw [← ht, heq]
    refine ⟨_, _, linked t ccb ⟨baseAfter t newBase, t.funcs.length⟩, rest,
      t.providedFuncs ccb.args, hhandle, ?_, hfirst.trans hdeath.symm, rfl⟩
    simp [addFunc, Daemon.setEvent]

end Assertion

/-- coeventd, with pid 1, before the first request. -/
def freshDaemon : Daemon := initDaemon 1 0 (fun _ => ⟨nullScb, 0, 0⟩) fun _ => []

/-- Process `pid` registers a function. -/
def register (pid : Nat) : Action :=
  .request pid (.ccbRegister ⟨true, true, some pid⟩ flagSlocall 0)

/-- Process `pid` gets the handle of its own event. -/
def listen (pid : Nat) : Action := .request pid (.colisten .processDeath pid)

/-- Process `pid` installs entry `i` on the event of process `p`. -/
def install (pid p i : Nat) : Action :=
  .request pid (.ccbInstall true (.proc p) true ⟨0, i⟩ 0 ⟨0, 0⟩)

/-- The condition as a test. -/
def checkRegistersFirst (s : Daemon) : Action → Bool
  | .request pid (.ccbRegister _ _ _) =>
    decide ((∀ f ∈ s.funcs, f.provider ≠ pid) → (s.procTable pid).callbacks = [])
  | _ => true

theorem registersFirst_of_check (s : Daemon) (a : Action) (h : checkRegistersFirst s a = true) :
    RegistersFirst s a := by
  cases a with
  | request pid r =>
    cases r with
    | ccbRegister scb flags newBase => exact fun _ _ => of_decide_eq_true h
    | _ => trivial
  | _ => trivial

/-- Two processes register a function each, and the first installs its own on the event of the
other. The record of the other is still first, and has its function. -/
theorem provider_record_first_two :
    ∃ s, runFrom Daemon.step freshDaemon [register 2, register 3, listen 3, install 2 3 1] =
      some s ∧ s.fate ≠ .aborted ∧ FirstLinks s (s.procTable 3).callbacks 2 := by
  obtain ⟨s, hs⟩ : ∃ s, runFrom Daemon.step freshDaemon
      [register 2, register 3, listen 3, install 2 3 1] = some s :=
    Option.isSome_iff_exists.mp (by decide)
  have hreach : Reach Daemon.step RegistersFirst freshDaemon s :=
    reach_of_checkAll registersFirst_of_check _ _ _ (by decide) hs
  have hserving : s.fate = .serving := eq_of_map_runFrom (fun s => s.fate) hs (by decide)
  have hentry : s.funcs[2]? = some ⟨⟨true, true, some 3⟩, 3, flagSlocall⟩ :=
    eq_of_map_runFrom (fun s => s.funcs[2]?) hs (by decide)
  have hfree : (s.procTable 3).inProgress = 0 :=
    eq_of_map_runFrom (fun s => (s.procTable 3).inProgress) hs (by decide)
  obtain ⟨hfate, hlinked, -⟩ := provider_record_first hreach
  exact ⟨s, hs, hfate, hlinked hserving 2 _ hentry (by decide) (by rw [hfree]; decide)⟩

/-- A callback is installed on the event of a process before it registers its first function. -/
theorem late_register_aborts :
    ∃ s, Reach Daemon.step anyAct freshDaemon s ∧ s.fate = .aborted := by
  obtain ⟨s, hs, hreach⟩ := exists_reach_of_isSome Daemon.step
    [register 2, listen 3, install 2 3 1, register 3] freshDaemon (by decide)
  exact ⟨s, hreach, eq_of_map_runFrom (fun s => s.fate) hs (by decide)⟩

end Comsg.Proofs.Coeventd
