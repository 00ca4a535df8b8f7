import Comsg.Proofs.Coeventd.Records

/-!
# `Comsg.Proofs.Coeventd.FuncTable`: whose functions are in the queues

Entry 0 of the table is coeventd's own function, the only one with `FLAG_PROVIDER`. Its callbacks
are the records of providers, whose arguments are lists and not a client's data.

`ccb_install` does not check the function it is given, and `ccb_register` takes the flags as they
come. So a client can queue a function of its own making, and register one with `FLAG_PROVIDER`
(`forged_callbacks`). A table that is full moves, and the pointers into it are left behind. When
none of this happens (`Genuine`), every function in a queue is an entry of the table, and
coeventd walks no lists but its own (`no_forged_callbacks`).
-/

set_option autoImplicit false

namespace Comsg.Proofs.Coeventd

open Comsg.Lib
open Comsg.Coeventd

/-- No flag but `FLAG_SLOCALL`. -/
def ClientFlags (flags : Flags) : Prop := flags &&& ~~~flagSlocall = 0

instance (flags : Flags) : Decidable (ClientFlags flags) := inferInstanceAs (Decidable (_ = _))

/-- The flags are a client's, with `FLAG_DEAD` at most after the death of the provider. -/
def ClientEntry (s : Daemon) (f : CocallbackFunc) : Prop :=
  ClientFlags f.flags ∨
    (s.alive f.provider = false ∧ ∃ flags, ClientFlags flags ∧ f.flags = flags ||| flagDead)

/-- The callback is the record of provider `p`, with functions of `p` in its list. -/
def IsRecord (s : Daemon) (p : Nat) (ccb : Cocallback) : Prop :=
  ccb.func = s.providerDeath ∧ ∃ l, ccb.args = .provided l ∧
    ∀ ptr ∈ l, ptr.base = s.base ∧ ptr.idx ≠ 0 ∧
      ∃ f, s.funcs[ptr.idx]? = some f ∧ f.provider = p

/-- The callback has the function of a client, and its data. -/
def IsClient (s : Daemon) (ccb : Cocallback) : Prop :=
  ∃ i len data, i ≠ 0 ∧ i < s.funcs.length ∧ ccb.func = ⟨s.base, i⟩ ∧ ccb.args = .data len data

/-- The invariant of the table and the queues. -/
structure TableOk (s : Daemon) : Prop where
  death : s.providerDeath = ⟨s.base, 0⟩
  internal : ∃ f, s.funcs[0]? = some f ∧ f.flags = flagProvider
  clients : ∀ (i : Nat) f, s.funcs[i]? = some f → i ≠ 0 → ClientEntry s f
  queued : ∀ p, ∀ ccb ∈ (s.procTable p).callbacks, IsRecord s p ccb ∨ IsClient s ccb

/-- A function that is registered has the flags of a client, and the table does not move. A
function that is installed is one that was registered. -/
def Genuine (s : Daemon) : Action → Prop
  | .request _ (.ccbRegister scb flags newBase) =>
    scb.tag = true → scb.isSealed = true →
      ClientFlags flags ∧ (s.funcs.length < s.tblLen ∨ newBase = s.base)
  | .request _ (.ccbInstall tag coevent funcTag func _ _) =>
    (Daemon.validateCoevent tag coevent).isSome → funcTag = true →
      func.base = s.base ∧ func.idx ≠ 0 ∧ func.idx < s.funcs.length
  | _ => True

section Flags
variable {s : Daemon} {f : CocallbackFunc} {flags : Flags}

theorem ClientFlags.not_provider (h : ClientFlags flags) : ¬Meets flags flagProvider :=
  not_meets_of_and_not h (by decide)

theorem ClientFlags.not_dead (h : ClientFlags flags) : ¬Meets flags flagDead :=
  not_meets_of_and_not h (by decide)

theorem ClientEntry.not_provider (h : ClientEntry s f) : ¬Meets f.flags flagProvider := by
  rcases h with h | ⟨-, flags, h, heq⟩
  · exact h.not_provider
  · rw [heq, meets_or_iff, not_or]
    exact ⟨h.not_provider, by decide⟩

/-- A client's entry stays one when its provider, who is dead, is flagged. -/
theorem ClientEntry.asDead (h : ClientEntry s f) (hdead : s.alive f.provider = false) :
    ClientEntry s (asDead f) := by
  refine .inr ⟨hdead, ?_⟩
  rcases h with h | ⟨-, flags, h, heq⟩
  · exact ⟨f.flags, h, rfl⟩
  · refine ⟨flags, h, ?_⟩
    rw [Comsg.Proofs.Coeventd.asDead, heq, BitVec.or_assoc, BitVec.or_self]

end Flags

section Queues
variable {s s' : Daemon} {p pid : Nat} {ccb : Cocallback}

/-- Callbacks stay what they are while the entries of the table keep their places. -/
theorem queued_mono (hbase : s'.base = s.base) (hdeath : s'.providerDeath = s.providerDeath)
    (hfuncs : ∀ (i : Nat) f, s.funcs[i]? = some f →
      ∃ g, s'.funcs[i]? = some g ∧ g.provider = f.provider)
    (h : IsRecord s p ccb ∨ IsClient s ccb) : IsRecord s' p ccb ∨ IsClient s' ccb := by
  rcases h with ⟨hfunc, l, hargs, hl⟩ | ⟨i, len, data, hi, hlt, hfunc, hargs⟩
  · refine .inl ⟨hfunc.trans hdeath.symm, l, hargs, fun ptr hptr => ?_⟩
    obtain ⟨hb, hne, f, hf, hprovider⟩ := hl ptr hptr
    obtain ⟨g, hg, hsame⟩ := hfuncs _ f hf
    exact ⟨hb.trans hbase.symm, hne, g, hg, hsame.trans hprovider⟩
  · obtain ⟨g, hg, -⟩ := hfuncs i _ (List.getElem?_eq_getElem hlt)
    exact .inr ⟨i, len, data, hi, (List.getElem?_eq_some_iff.mp hg).1, by rw [hfunc, hbase], hargs⟩

/-- A change of one queue, with callbacks that are genuine. -/
theorem tableOk_update {e : Coevent} {m : Nat → Bool} {n : Nat} {added : Nat → List Nat}
    (h : TableOk s) (hqueue : ∀ ccb ∈ e.callbacks, IsRecord s pid ccb ∨ IsClient s ccb) :
    TableOk { s with
      procTable := Function.update s.procTable pid e
      monitored := m
      serial := n
      added := added } :=
  { h with
    queued := (Function.forall_update_iff s.procTable fun p e =>
      ∀ ccb ∈ e.callbacks, IsRecord s p ccb ∨ IsClient s ccb).mpr
        ⟨hqueue, fun p _ => h.queued p⟩ }

theorem tableOk_openEvent (h : TableOk s) (pid : Nat) : TableOk (openEvent s pid) := by
  unfold openEvent
  split
  · exact tableOk_update h (by simp)
  · exact h

theorem tableOk_enqueue {func : Ptr} {args : CocallbackArgs} (h : TableOk s)
    (hnew : IsRecord s pid ⟨s.serial, func, args⟩ ∨ IsClient s ⟨s.serial, func, args⟩) :
    TableOk (enqueue s pid func args) := by
  refine tableOk_update h fun ccb hmem => ?_
  rcases List.mem_append.mp hmem with hmem | hmem
  · exact h.queued pid ccb hmem
  · rw [List.mem_singleton.mp hmem]
    exact hnew

theorem tableOk_withRecord (h : TableOk s) (pid : Nat) : TableOk (withRecord s pid) := by
  unfold withRecord
  split
  · exact tableOk_enqueue h (.inl ⟨rfl, [], rfl, by simp⟩)
  · exact h

/-- A queue that begins with coeventd's own function begins with a record. -/
theorem TableOk.record (h : TableOk s) (hmem : ccb ∈ (s.procTable p).callbacks)
    (hfunc : ccb.func = s.providerDeath) : IsRecord s p ccb := by
  refine (h.queued p ccb hmem).resolve_right ?_
  rintro ⟨i, len, data, hi, -, hptr, -⟩
  rw [hfunc, h.death, Ptr.mk.injEq] at hptr
  exact hi hptr.2.symm

theorem tableOk_addFunc {f : CocallbackFunc} {newBase : Nat} {rest : List Cocallback}
    (h : TableOk s) (hflags : ClientFlags f.flags) (hbase : baseAfter s newBase = s.base)
    (hqueue : (s.procTable f.provider).callbacks = ccb :: rest)
    (hfirst : ccb.func = s.providerDeath) : TableOk (addFunc s f newBase ccb rest) := by
  have hmono {q : Nat} {c : Cocallback} (hc : IsRecord s q c ∨ IsClient s c) :
      IsRecord (addFunc s f newBase ccb rest) q c ∨ IsClient (addFunc s f newBase ccb rest) c :=
    queued_mono hbase rfl (fun i g hg => ⟨g, entry_append hg, rfl⟩) hc
  obtain ⟨g, hg, hown⟩ := h.internal
  have hpos : 0 < s.funcs.length := (List.getElem?_eq_some_iff.mp hg).1
  exact {
    death := by
      show s.providerDeath = ⟨baseAfter s newBase, 0⟩
      rw [hbase, h.death]
    internal := ⟨g, entry_append hg, hown⟩
    clients := fun i g hg hi => by
      rcases entry_cases hg with hg | ⟨-, rfl⟩
      · exact h.clients i g hg hi
      · exact .inl hflags
    queued := fun q c hc => by
      replace hc : c ∈ (Function.update s.procTable f.provider { s.procTable f.provider with
        callbacks := linked s ccb ⟨baseAfter s newBase, s.funcs.length⟩ :: rest } q).callbacks := hc
      by_cases hq : q = f.provider
      · rw [hq, Function.update_self] at hc
        have hin : ∀ c ∈ ccb :: rest, IsRecord s q c ∨ IsClient s c := by
          rw [hq, ← hqueue]
          exact h.queued f.provider
        rcases List.mem_cons.mp hc with rfl | hc
        · -- The record has the new entry and those it had before.
          have hmem : ccb ∈ (s.procTable f.provider).callbacks := by simp [hqueue]
          obtain ⟨-, l, hargs, hl⟩ := h.record hmem hfirst
          refine .inl ⟨hfirst, ⟨baseAfter s newBase, s.funcs.length⟩ :: l, ?_, fun ptr hptr => ?_⟩
          · simp [linked, hargs, Daemon.providedFuncs]
          · rcases List.mem_cons.mp hptr with rfl | hptr
            · exact ⟨rfl, Nat.ne_of_gt hpos, f, List.getElem?_concat_length, hq.symm⟩
            · obtain ⟨hb, hne, f', hf', hprovider⟩ := hl ptr hptr
              exact ⟨hb.trans hbase.symm, hne, f', entry_append hf', hprovider.trans hq.symm⟩
        · exact hmono (hin c (List.mem_cons_of_mem _ hc))
      · rw [Function.update_of_ne hq] at hc
        exact hmono (h.queued q c hc) }

/-- A record flags the functions in its list. -/
theorem execute_record (h : TableOk s) (hrecord : IsRecord s p ccb) :
    s.executeCocallback ccb = (s.flagDeadProvider ccb, .flagged) := by
  obtain ⟨g, hg, hflags⟩ := h.internal
  have hderef : s.deref ccb.func = g := by
    rw [hrecord.1, h.death, deref_entry hg]
  simp only [Daemon.executeCocallback, hderef, hflags]
  rw [if_pos (by decide)]

/-- Any other callback leaves coeventd as it is. -/
theorem execute_client {i : Nat} {f : CocallbackFunc} (h : TableOk s)
    (hf : s.funcs[i]? = some f) (hi : i ≠ 0) (hfunc : ccb.func = ⟨s.base, i⟩) :
    s.executeCocallback ccb =
      (s, if Meets f.flags flagDead then .skipped else s.cocallTls f.scb) := by
  simp only [Daemon.executeCocallback, hfunc, deref_entry hf]
  rw [if_neg (h.clients i f hf hi).not_provider]
  split
  · rfl
  · split <;> rfl

/-- The walk over the list of a dead provider. -/
theorem tableOk_flagged {l : List Ptr} (h : TableOk s) (hdead : s.alive p = false)
    (hl : ∀ ptr ∈ l, ptr.base = s.base ∧ ptr.idx ≠ 0 ∧
      ∃ f, s.funcs[ptr.idx]? = some f ∧ f.provider = p) : TableOk (l.foldl Daemon.flagFunc s) := by
  obtain ⟨funcs, memory, hfold, hfuncs⟩ := foldl_flagFunc l s
  rw [hfold]
  have hkept : ∀ (i : Nat) f, s.funcs[i]? = some f →
      ∃ g, funcs[i]? = some g ∧ g.provider = f.provider := by
    intro i f hf
    refine ⟨_, by rw [hfuncs i, hf, Option.map_some], ?_⟩
    split <;> rfl
  exact {
    death := h.death
    internal := by
      obtain ⟨f, hf, hflags⟩ := h.internal
      have hnot : (⟨s.base, 0⟩ : Ptr) ∉ l := fun hmem => (hl _ hmem).2.1 rfl
      exact ⟨f, by simp [hfuncs, hf, hnot], hflags⟩
    clients := fun i g hg hi => by
      rw [hfuncs i] at hg
      obtain ⟨f, hf, rfl⟩ := Option.map_eq_some_iff.mp hg
      split
      · rename_i hmem
        obtain ⟨-, -, f', hf', hprovider⟩ := hl _ hmem
        obtain rfl : f' = f := Option.some.inj (hf'.symm.trans hf)
        exact (h.clients i f' hf hi).asDead (by rw [hprovider, hdead])
      · exact h.clients i f hf hi
    queued := fun q c hc => queued_mono (s := s) rfl rfl hkept (h.queued q c hc) }

/-- A callback that returns leaves the table in order. -/
theorem tableOk_handledOne {rest : List Cocallback} (h : TableOk s) (hdead : s.alive pid = false)
    (hqueue : (s.procTable pid).callbacks = ccb :: rest) : TableOk (handledOne s pid ccb rest) := by
  have hmem : ccb ∈ (s.procTable pid).callbacks := by simp [hqueue]
  have hexec : TableOk (s.executeCocallback ccb).1 := by
    rcases h.queued pid ccb hmem with hrecord | ⟨i, len, data, hi, hlt, hfunc, -⟩
    · rw [execute_record h hrecord]
      obtain ⟨-, l, hargs, hl⟩ := hrecord
      simp only [Daemon.flagDeadProvider, hargs, Daemon.providedFuncs]
      exact tableOk_flagged h hdead hl
    · rw [execute_client h (List.getElem?_eq_getElem hlt) hi hfunc]
      exact h
  have hsame : ((s.executeCocallback ccb).1.procTable pid).callbacks = ccb :: rest := by
    obtain ⟨funcs, memory, heq, -⟩ := executeCocallback_eq s ccb
    rw [heq]
    exact hqueue
  have hrest : TableOk ((s.executeCocallback ccb).1.setEvent pid
      { (s.executeCocallback ccb).1.procTable pid with callbacks := rest }) := by
    refine tableOk_update hexec fun c hc => hexec.queued pid c ?_
    rw [hsame]
    exact List.mem_cons_of_mem _ hc
  exact { hrest with }

/-- The trigger for a dead process leaves the table in order. -/
theorem tableOk_trigger (h : TableOk s) (hdead : s.alive pid = false) :
    TableOk (s.triggerCocallbacks pid) := by
  refine trigger_rule (P := fun queue t => TableOk t ∧ t.alive = s.alive ∧
    (t.procTable pid).callbacks = queue) (Q := TableOk) ?_ ?_ ?_ ?_
  · rintro t ccb rest ⟨hok, halive, hqueue⟩ -
    refine ⟨tableOk_handledOne hok (by rw [halive, hdead]) hqueue, ?_,
      handledOne_callbacks t pid ccb rest⟩
    rw [(elsewhere_handledOne t pid ccb rest).alive, halive]
  · rintro t ccb rest ⟨hok, halive, hqueue⟩ -
    exact { tableOk_handledOne hok (by rw [halive, hdead]) hqueue with }
  · rintro t ⟨hok, -, -⟩
    exact tableOk_update hok (hok.queued pid)
  · refine ⟨?_, rfl, by simp [startTrigger, Daemon.setEvent]⟩
    exact tableOk_update h (h.queued pid)

/-- A genuine step leaves the table in order. -/
theorem tableOk_change {a : Action} (h : TableOk s) (hgenuine : Genuine s a)
    (hc : Change s a s') : TableOk s' := by
  cases hc with
  | refused pid r => exact h
  | listened pid event subject halive => exact tableOk_openEvent h pid
  | registered pid scb flags newBase ccb rest halive hself htag hsealed hqueue hfirst =>
    obtain ⟨hflags, hplace⟩ := hgenuine htag hsealed
    have hok := tableOk_withRecord (tableOk_openEvent h pid) pid
    obtain ⟨t, m, n, added, heq⟩ := monitor_kept s pid
    rw [heq] at hok hqueue ⊢
    refine tableOk_addFunc hok hflags ?_ hqueue hfirst
    show (if s.tblLen ≤ s.funcs.length then newBase else s.base) = s.base
    split
    · exact hplace.resolve_left (by omega)
    · rfl
  | installed pid p func len data hpid hp hfree =>
    obtain ⟨hbase, hne, hlt⟩ := hgenuine rfl rfl
    exact tableOk_enqueue h (.inr ⟨func.idx, len, data, hne, hlt, by rw [← hbase], rfl⟩)
  | faulted | aborted | stored => exact { h with }
  | died pid halive hself =>
    refine { h with clients := fun i f hf hi => ?_ }
    rcases h.clients i f hf hi with hflags | ⟨hdead, hflags⟩
    · exact .inl hflags
    · refine .inr ⟨?_, hflags⟩
      show Function.update s.alive pid false f.provider = false
      by_cases hp : f.provider = pid
      · rw [hp, Function.update_self]
      · rw [Function.update_of_ne hp, hdead]
  | reported pid hdead hmonitored => exact tableOk_trigger h hdead

theorem tableOk_init {mypid base : Nat} {memory : Ptr → CocallbackFunc}
    {chains : Ptr → List Ptr} : TableOk (initDaemon mypid base memory chains) where
  death := rfl
  internal := ⟨_, rfl, rfl⟩
  clients i f hf hi := by
    cases i with
    | zero => exact absurd rfl hi
    | succ i => simp [initDaemon] at hf
  queued p ccb hmem := by simp [initDaemon] at hmem

theorem tableOk_reach {ok : Daemon → Action → Prop} (hgenuine : ∀ s a, ok s a → Genuine s a)
    {mypid base : Nat} {memory : Ptr → CocallbackFunc} {chains : Ptr → List Ptr}
    (h : Reach Daemon.step ok (initDaemon mypid base memory chains) s) : TableOk s := by
  induction h with
  | init => exact tableOk_init
  | next a hreach hok hs ih =>
    have hserving := servingOk_reach hreach (serving_of_step hs)
    exact tableOk_change ih (hgenuine _ a hok) (step_change hserving.idle hs)

/-- When the functions that are registered have the flags of a client, those that are installed
were registered, and the table does not move: every queued callback has an entry of the table,
`FLAG_PROVIDER` is on coeventd's own entry alone, the entries of live clients have no flag but
`FLAG_SLOCALL`, and `flag_dead_provider` walks the list of a provider's record only. -/
theorem no_forged_callbacks {mypid base : Nat} {memory : Ptr → CocallbackFunc}
    {chains : Ptr → List Ptr}
    (h : Reach Daemon.step Genuine (initDaemon mypid base memory chains) s) :
    (∀ p, ∀ ccb ∈ (s.procTable p).callbacks, ∃ i, i < s.funcs.length ∧ ccb.func = ⟨s.base, i⟩) ∧
    s.providerDeath = ⟨s.base, 0⟩ ∧
    (∀ (i : Nat) f, s.funcs[i]? = some f → (Meets f.flags flagProvider ↔ i = 0)) ∧
    (∀ (i : Nat) f, s.funcs[i]? = some f → i ≠ 0 → s.alive f.provider = true →
      ClientFlags f.flags) ∧
    ∀ p, ∀ ccb ∈ (s.procTable p).callbacks, Meets (s.deref ccb.func).flags flagProvider →
      IsRecord s p ccb := by
  have hok := tableOk_reach (fun _ _ hgenuine => hgenuine) h
  obtain ⟨g, hg, hflags⟩ := hok.internal
  refine ⟨fun p ccb hmem => ?_, hok.death, fun i f hf => ?_, fun i f hf hi halive => ?_,
    fun p ccb hmem hprovider => ?_⟩
  · rcases hok.queued p ccb hmem with ⟨hfunc, -⟩ | ⟨i, -, -, -, hlt, hfunc, -⟩
    · exact ⟨0, (List.getElem?_eq_some_iff.mp hg).1, hfunc.trans hok.death⟩
    · exact ⟨i, hlt, hfunc⟩
  · constructor
    · intro hmeets
      by_contra hi
      exact (hok.clients i f hf hi).not_provider hmeets
    · rintro rfl
      rw [hg, Option.some.injEq] at hf
      rw [← hf, hflags]
      decide
  · refine (hok.clients i f hf hi).resolve_right ?_
    rintro ⟨hdead, -⟩
    rw [hdead] at halive
    cases halive
  · refine (hok.queued p ccb hmem).resolve_right ?_
    rintro ⟨i, -, -, hi, hlt, hfunc, -⟩
    have hentry := List.getElem?_eq_getElem hlt
    rw [hfunc, deref_entry hentry] at hprovider
    exact (hok.clients i _ hentry hi).not_provider hprovider

end Queues

/-- The condition as a test. -/
def checkGenuine (s : Daemon) : Action → Bool
  | .request _ (.ccbRegister _ flags newBase) =>
    decide (ClientFlags flags ∧ (s.funcs.length < s.tblLen ∨ newBase = s.base))
  | .request _ (.ccbInstall _ _ _ func _ _) =>
    decide (func.base = s.base ∧ func.idx ≠ 0 ∧ func.idx < s.funcs.length)
  | _ => true

theorem genuine_of_check (s : Daemon) (a : Action) (h : checkGenuine s a = true) :
    Genuine s a := by
  cases a with
  | request pid r =>
    cases r with
    | colisten event subject => trivial
    | ccbRegister scb flags newBase => exact fun _ _ => of_decide_eq_true h
    | ccbInstall tag coevent funcTag func len data => exact fun _ _ => of_decide_eq_true h
  | _ => trivial

/-- A process installs a function that it has registered. -/
theorem no_forged_callbacks_one :
    ∃ s, runFrom Daemon.step freshDaemon [register 2, listen 3, install 2 3 1] = some s ∧
      (s.procTable 3).callbacks = [⟨1, ⟨0, 1⟩, .data 0 ⟨0, 0⟩⟩] ∧
      ∀ ccb ∈ (s.procTable 3).callbacks, ∃ i, i < s.funcs.length ∧ ccb.func = ⟨s.base, i⟩ := by
  obtain ⟨s, hs⟩ : ∃ s, runFrom Daemon.step freshDaemon [register 2, listen 3, install 2 3 1] =
      some s := Option.isSome_iff_exists.mp (by decide)
  have hreach : Reach Daemon.step Genuine freshDaemon s :=
    reach_of_checkAll genuine_of_check _ _ _ (by decide) hs
  have hqueue : (s.procTable 3).callbacks = [⟨1, ⟨0, 1⟩, .data 0 ⟨0, 0⟩⟩] :=
    eq_of_map_runFrom (fun s => (s.procTable 3).callbacks) hs (by decide)
  exact ⟨s, hs, hqueue, (no_forged_callbacks hreach).1 3⟩

/-- A client registers a function with `FLAG_PROVIDER`, and installs one of its own making. -/
theorem forged_callbacks :
    ∃ s, Reach Daemon.step anyAct freshDaemon s ∧
      (∃ f, s.funcs[1]? = some f ∧ Meets f.flags flagProvider) ∧
      ∃ ccb ∈ (s.procTable 3).callbacks, ∀ i, ccb.func ≠ ⟨s.base, i⟩ := by
  obtain ⟨s, hs, hreach⟩ := exists_reach_of_isSome Daemon.step
    [.request 2 (.ccbRegister ⟨true, true, some 2⟩ flagProvider 0), listen 3,
      .request 2 (.ccbInstall true (.proc 3) true ⟨7, 0⟩ 0 ⟨7, 0⟩)] freshDaemon (by decide)
  have hentry : s.funcs[1]? = some ⟨⟨true, true, some 2⟩, 2, flagProvider⟩ :=
    eq_of_map_runFrom (fun s => s.funcs[1]?) hs (by decide)
  have hqueue : (s.procTable 3).callbacks = [⟨1, ⟨7, 0⟩, .data 0 ⟨7, 0⟩⟩] :=
    eq_of_map_runFrom (fun s => (s.procTable 3).callbacks) hs (by decide)
  have hbase : s.base = 0 := eq_of_map_runFrom (fun s => s.base) hs (by decide)
  exact ⟨s, hreach, ⟨_, hentry, by decide⟩, _, by rw [hqueue]; exact List.mem_cons_self,
    fun i => by simp [hbase]⟩

end Comsg.Proofs.Coeventd
