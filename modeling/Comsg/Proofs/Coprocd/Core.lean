import Comsg.Coprocd.Core
import Comsg.Lib.Threads

/-!
# `Comsg.Proofs.Coprocd.Core`: what the start-up handshake hands out

`nsd_setup` and `coserviced_setup` wait once on their condition variables, and they do not test
again what they wait for. So a return from `pthread_cond_wait` that nobody has signalled hands out
`NULL` (`coserviced_gets_null`). `handshake_hands_out` says that this is the only way: when every
such return comes after the capability was stored, every reply carries what was brought.

The invariant says for each place in the code what is stored there. `nsd_setup` stores the root
namespace last. As long as it is `NULL` no other thread has passed its wait, and later on the
capabilities do not change any more. So the mutex is not needed in the proof.
-/

set_option autoImplicit false

namespace Comsg.Proofs.Coprocd

open Comsg.Coprocd
open Comsg.Lib (Reach anyAct runFrom reach_of_runFrom reach_of_checkAll eq_of_map_runFrom)

variable {α : Type}

/-! ### What is stored -/

/-- What nsd brings is stored. -/
structure Published (b : Brought α) (core : Core α) : Prop where
  ns : core.rootNamespace = some b.ns
  coinsert : core.coinsertScb = some b.coinsert
  coselect : core.coselectScb = some b.coselect

/-- What coserviced brings is stored too. -/
structure AllStored (b : Brought α) (core : Core α) : Prop extends Published b core where
  codiscover : core.codiscoverScb = some b.codiscover

/-- What holds where `nsd_setup` is. -/
def NsdInv (b : Brought α) (core : Core α) : NsdPc α → Prop
  | .entry | .clear | .putCoinsert => core.rootNamespace = none
  | .putCoselect => core.rootNamespace = none ∧ core.coinsertScb = some b.coinsert
  | .putRoot => core.rootNamespace = none ∧ core.coinsertScb = some b.coinsert ∧
      core.coselectScb = some b.coselect
  | .putStatus | .signal => Published b core
  | .asleep => Published b core ∧
      (core.nsdWakeup = .signalled → core.codiscoverScb = some b.codiscover)
  | .load => AllStored b core
  | .unlock codiscover | .replied codiscover => AllStored b core ∧ codiscover = some b.codiscover

/-- What holds where `coserviced_setup` is. -/
def CoservicedInv (b : Brought α) (core : Core α) : CoservicedPc α → Prop
  | .entry | .load => True
  | .asleep => core.coservicedWakeup = .signalled → Published b core
  | .reload => Published b core
  | .getCoinsert ns => Published b core ∧ ns = some b.ns
  | .getCoselect ns coinsert =>
    Published b core ∧ ns = some b.ns ∧ coinsert = some b.coinsert
  | .putCodiscover ns coinsert coselect =>
    Published b core ∧ ns = some b.ns ∧ coinsert = some b.coinsert ∧ coselect = some b.coselect
  | .signal ns coinsert coselect | .unlock ns coinsert coselect
  | .replied ns coinsert coselect =>
    AllStored b core ∧ ns = some b.ns ∧ coinsert = some b.coinsert ∧ coselect = some b.coselect

/-- What holds where another call is. `returned` says that `nsd_setup` has returned. -/
def CallInv (b : Brought α) (returned : Prop) : CoreCall → CallPc α → Prop
  | .coprocUserInit, .getRoot => returned
  | .coprocUserInit, .getCodiscover ns => returned ∧ ns = some b.ns
  | .coprocUserInit, .getCoinsert ns codiscover =>
    returned ∧ ns = some b.ns ∧ codiscover = some b.codiscover
  | .coprocUserInit, .getCoselect ns codiscover coinsert =>
    returned ∧ ns = some b.ns ∧ codiscover = some b.codiscover ∧ coinsert = some b.coinsert
  | .coprocUserInit, .user ns codiscover coinsert coselect =>
    ns = some b.ns ∧ codiscover = some b.codiscover ∧ coinsert = some b.coinsert ∧
      coselect = some b.coselect
  | .coprocUserInit, _ => True
  | _, _ => returned

/-- What holds in every state. -/
structure HandshakeInv (b : Brought α) (s : Handshake α) : Prop where
  codiscover : ∀ c, s.core.codiscoverScb = some c → c = b.codiscover
  nsd : NsdInv b s.core s.nsd
  coserviced : CoservicedInv b s.core s.coserviced
  inited : s.core.ukernInited = true → s.nsdReturned = true
  calls : ∀ x ∈ s.calls, CallInv b (s.nsdReturned = true) x.1 x.2

/-! ### The condition -/

/-- A thread that returns from its wait was signalled, or what it waits for is stored. -/
def Timely (s : Handshake α) : HandshakeAct → Prop
  | .nsd => s.nsd = .asleep → s.core.nsdWakeup = .signalled ∨ s.core.codiscoverScb ≠ none
  | .coserviced => s.coserviced = .asleep →
      s.core.coservicedWakeup = .signalled ∨ s.core.rootNamespace ≠ none
  | _ => True

/-- Every reply carries what was brought, and `coproc_user_init` hands out no `NULL`. -/
structure HandsOut (b : Brought α) (s : Handshake α) : Prop where
  coserviced : ∀ ns coinsert coselect, s.coserviced = .replied ns coinsert coselect →
    ns = some b.ns ∧ coinsert = some b.coinsert ∧ coselect = some b.coselect
  nsd : ∀ codiscover, s.nsd = .replied codiscover → codiscover = some b.codiscover
  user : ∀ ns codiscover coinsert coselect,
    (CoreCall.coprocUserInit, CallPc.user ns codiscover coinsert coselect) ∈ s.calls →
      ns.isSome = true ∧ codiscover.isSome = true ∧ coinsert.isSome = true ∧
        coselect.isSome = true

/-! ### Every thread keeps what holds where it is -/

section Steps
variable {b : Brought α} {core core' : Core α}

/-- The root namespace is the last one that nsd stores. -/
theorem NsdInv.published {pc : NsdPc α} (h : NsdInv b core pc) {ns : α}
    (hns : core.rootNamespace = some ns) : Published b core := by
  cases pc with
  | entry | clear | putCoinsert =>
    rw [show core.rootNamespace = none from h] at hns
    cases hns
  | putCoselect | putRoot =>
    rw [h.1] at hns
    cases hns
  | putStatus | signal => exact h
  | asleep => exact h.1
  | load => exact h.toPublished
  | unlock | replied => exact h.1.toPublished

variable {pc pc' : NsdPc α} {q q' : CoservicedPc α}

/-- `nsd_setup`, when its wait returns in time. -/
theorem nsdStep_nsdInv (hcod : ∀ c, core.codiscoverScb = some c → c = b.codiscover)
    (hinv : NsdInv b core pc)
    (htime : pc = .asleep → core.nsdWakeup = .signalled ∨ core.codiscoverScb ≠ none)
    (h : core.nsdStep b pc = some (core', pc')) : NsdInv b core' pc' := by
  cases pc with
  | entry =>
    simp only [Core.nsdStep, Option.ite_none_left_eq_some] at h
    cases h.2
    exact hinv
  | clear =>
    cases h
    exact hinv
  | putCoinsert =>
    cases h
    exact ⟨hinv, rfl⟩
  | putCoselect =>
    cases h
    exact ⟨hinv.1, hinv.2, rfl⟩
  | putRoot =>
    cases h
    exact ⟨rfl, hinv.2.1, hinv.2.2⟩
  | putStatus =>
    cases h
    exact ⟨hinv.ns, hinv.coinsert, hinv.coselect⟩
  | signal =>
    cases h
    -- The wait has just begun, and nobody has signalled it yet.
    exact ⟨⟨hinv.ns, hinv.coinsert, hinv.coselect⟩, fun hsig => nomatch hsig⟩
  | asleep =>
    simp only [Core.nsdStep, Option.ite_none_left_eq_some] at h
    cases h.2
    have hstored : core.codiscoverScb = some b.codiscover := by
      rcases htime rfl with hsig | hne
      · exact hinv.2 hsig
      · obtain ⟨c, hc⟩ := Option.ne_none_iff_exists'.mp hne
        rw [hc, hcod c hc]
    exact ⟨⟨hinv.1.ns, hinv.1.coinsert, hinv.1.coselect⟩, hstored⟩
  | load =>
    cases h
    exact ⟨hinv, hinv.codiscover⟩
  | unlock codiscover =>
    cases h
    exact ⟨⟨⟨hinv.1.ns, hinv.1.coinsert, hinv.1.coselect⟩, hinv.1.codiscover⟩, hinv.2⟩
  | replied codiscover => cases h

/-- `coserviced_setup`, when its wait returns in time. -/
theorem coservicedStep_coservicedInv (hnsd : NsdInv b core pc) (hinv : CoservicedInv b core q)
    (htime : q = .asleep → core.coservicedWakeup = .signalled ∨ core.rootNamespace ≠ none)
    (h : core.coservicedStep b q = some (core', q')) : CoservicedInv b core' q' := by
  cases q with
  | entry =>
    simp only [Core.coservicedStep, Option.ite_none_left_eq_some] at h
    cases h.2
    trivial
  | load =>
    cases hns : core.rootNamespace with
    | none =>
      simp only [Core.coservicedStep, hns] at h
      cases h
      exact fun hsig => nomatch hsig
    | some ns =>
      simp only [Core.coservicedStep, hns] at h
      cases h
      have hpub := hnsd.published hns
      exact ⟨hpub, by rw [← hns, hpub.ns]⟩
  | asleep =>
    simp only [Core.coservicedStep, Option.ite_none_left_eq_some] at h
    cases h.2
    have hpub : Published b core := by
      rcases htime rfl with hsig | hne
      · exact hinv hsig
      · obtain ⟨ns, hns⟩ := Option.ne_none_iff_exists'.mp hne
        exact hnsd.published hns
    exact ⟨hpub.ns, hpub.coinsert, hpub.coselect⟩
  | reload =>
    cases h
    exact ⟨hinv, hinv.ns⟩
  | getCoinsert ns =>
    cases h
    exact ⟨hinv.1, hinv.2, hinv.1.coinsert⟩
  | getCoselect ns coinsert =>
    cases h
    exact ⟨hinv.1, hinv.2.1, hinv.2.2, hinv.1.coselect⟩
  | putCodiscover ns coinsert coselect =>
    cases h
    exact ⟨⟨⟨hinv.1.ns, hinv.1.coinsert, hinv.1.coselect⟩, rfl⟩, hinv.2⟩
  | signal ns coinsert coselect =>
    cases h
    exact ⟨⟨⟨hinv.1.ns, hinv.1.coinsert, hinv.1.coselect⟩, hinv.1.codiscover⟩, hinv.2⟩
  | unlock ns coinsert coselect =>
    cases h
    exact ⟨⟨⟨hinv.1.ns, hinv.1.coinsert, hinv.1.coselect⟩, hinv.1.codiscover⟩, hinv.2⟩
  | replied ns coinsert coselect => cases h

/-! ### And what holds where the others are -/

/-- What coserviced relies on about the steps of the other threads. -/
structure CoservicedRely (b : Brought α) (core core' : Core α) : Prop where
  published : Published b core → Published b core'
  allStored : AllStored b core → AllStored b core'
  wakeup : core'.coservicedWakeup = .signalled →
    core.coservicedWakeup = .signalled ∨ Published b core'

theorem CoservicedInv.mono (hrely : CoservicedRely b core core') (h : CoservicedInv b core q) :
    CoservicedInv b core' q := by
  cases q with
  | entry | load => trivial
  | asleep =>
    intro hsig
    rcases hrely.wakeup hsig with hold | hpub
    · exact hrely.published (h hold)
    · exact hpub
  | reload => exact hrely.published h
  | getCoinsert | getCoselect | putCodiscover => exact ⟨hrely.published h.1, h.2⟩
  | signal | unlock | replied => exact ⟨hrely.allStored h.1, h.2⟩

/-- What nsd relies on about the steps of the other threads. -/
structure NsdRely (b : Brought α) (core core' : Core α) : Prop where
  ns : core'.rootNamespace = core.rootNamespace
  coinsert : core'.coinsertScb = core.coinsertScb
  coselect : core'.coselectScb = core.coselectScb
  codiscover : core.codiscoverScb = some b.codiscover → core'.codiscoverScb = some b.codiscover
  wakeup : core'.nsdWakeup = .signalled →
    core.nsdWakeup = .signalled ∨ core'.codiscoverScb = some b.codiscover

theorem NsdRely.published (hrely : NsdRely b core core') (h : Published b core) :
    Published b core' :=
  ⟨hrely.ns.trans h.ns, hrely.coinsert.trans h.coinsert, hrely.coselect.trans h.coselect⟩

theorem NsdRely.allStored (hrely : NsdRely b core core') (h : AllStored b core) :
    AllStored b core' :=
  ⟨hrely.published h.toPublished, hrely.codiscover h.codiscover⟩

theorem NsdInv.mono (hrely : NsdRely b core core') (h : NsdInv b core pc) : NsdInv b core' pc := by
  cases pc with
  | entry | clear | putCoinsert => exact hrely.ns.trans h
  | putCoselect => exact ⟨hrely.ns.trans h.1, hrely.coinsert.trans h.2⟩
  | putRoot =>
    exact ⟨hrely.ns.trans h.1, hrely.coinsert.trans h.2.1, hrely.coselect.trans h.2.2⟩
  | putStatus | signal => exact hrely.published h
  | asleep =>
    refine ⟨hrely.published h.1, fun hsig => ?_⟩
    rcases hrely.wakeup hsig with hold | hstored
    · exact hrely.codiscover (h.2 hold)
    · exact hstored
  | load => exact hrely.allStored h
  | unlock | replied => exact ⟨hrely.allStored h.1, h.2⟩

/-- As long as nsd has not stored the root namespace, coserviced relies on the condition variable
only. -/
theorem coservicedRely_of_none (hns : core.rootNamespace = none)
    (hwake : core'.coservicedWakeup = core.coservicedWakeup) : CoservicedRely b core core' where
  published h := by
    rw [h.ns] at hns
    cases hns
  allStored h := by
    rw [h.ns] at hns
    cases hns
  wakeup h := .inl (hwake ▸ h)

/-- Two states with the same capabilities. -/
structure SameCaps (core core' : Core α) : Prop where
  ns : core'.rootNamespace = core.rootNamespace
  coinsert : core'.coinsertScb = core.coinsertScb
  coselect : core'.coselectScb = core.coselectScb
  codiscover : core'.codiscoverScb = core.codiscoverScb

theorem SameCaps.coservicedRely (h : SameCaps core core')
    (hwake : core'.coservicedWakeup = .signalled →
      core.coservicedWakeup = .signalled ∨ Published b core') : CoservicedRely b core core' := by
  have hpub (hold : Published b core) : Published b core' :=
    ⟨h.ns.trans hold.ns, h.coinsert.trans hold.coinsert, h.coselect.trans hold.coselect⟩
  exact ⟨hpub, fun hold => ⟨hpub hold.toPublished, h.codiscover.trans hold.codiscover⟩, hwake⟩

theorem nsdStep_rely (hinv : NsdInv b core pc) (h : core.nsdStep b pc = some (core', pc')) :
    CoservicedRely b core core' := by
  cases pc with
  | entry =>
    simp only [Core.nsdStep, Option.ite_none_left_eq_some] at h
    cases h.2
    exact coservicedRely_of_none hinv rfl
  | clear =>
    cases h
    exact coservicedRely_of_none hinv rfl
  | putCoinsert =>
    cases h
    exact coservicedRely_of_none hinv rfl
  | putCoselect =>
    cases h
    exact coservicedRely_of_none hinv.1 rfl
  | putRoot =>
    cases h
    exact coservicedRely_of_none hinv.1 rfl
  | putStatus =>
    cases h
    exact SameCaps.coservicedRely ⟨rfl, rfl, rfl, rfl⟩ .inl
  | signal =>
    cases h
    exact SameCaps.coservicedRely ⟨rfl, rfl, rfl, rfl⟩
      fun _ => .inr ⟨hinv.ns, hinv.coinsert, hinv.coselect⟩
  | asleep =>
    simp only [Core.nsdStep, Option.ite_none_left_eq_some] at h
    cases h.2
    exact SameCaps.coservicedRely ⟨rfl, rfl, rfl, rfl⟩ .inl
  | load | unlock =>
    cases h
    exact SameCaps.coservicedRely ⟨rfl, rfl, rfl, rfl⟩ .inl
  | replied => cases h

theorem coservicedStep_rely (hinv : CoservicedInv b core q)
    (h : core.coservicedStep b q = some (core', q')) : NsdRely b core core' := by
  cases q with
  | entry | asleep =>
    simp only [Core.coservicedStep, Option.ite_none_left_eq_some] at h
    cases h.2
    exact ⟨rfl, rfl, rfl, id, .inl⟩
  | load =>
    cases hns : core.rootNamespace with
    | none =>
      simp only [Core.coservicedStep, hns] at h
      cases h
      exact ⟨hns.symm, rfl, rfl, id, .inl⟩
    | some ns =>
      simp only [Core.coservicedStep, hns] at h
      cases h
      exact ⟨rfl, rfl, rfl, id, .inl⟩
  | reload | getCoinsert | getCoselect | unlock =>
    cases h
    exact ⟨rfl, rfl, rfl, id, .inl⟩
  | putCodiscover =>
    cases h
    exact ⟨rfl, rfl, rfl, fun _ => rfl, .inl⟩
  | signal =>
    cases h
    -- The signal comes after the capability was stored.
    exact ⟨rfl, rfl, rfl, id, fun _ => .inr hinv.1.codiscover⟩
  | replied => cases h

/-- What the other calls leave alone. -/
structure CallRely (c : CoreCall) (core core' : Core α) : Prop extends SameCaps core core' where
  nsdWakeup : core'.nsdWakeup = core.nsdWakeup
  coservicedWakeup : core'.coservicedWakeup = core.coservicedWakeup
  inited : core'.ukernInited = true → core.ukernInited = true ∨ c = .ipcdSetupComplete

theorem CallRely.nsdRely {c : CoreCall} (h : CallRely c core core') : NsdRely b core core' where
  ns := h.ns
  coinsert := h.coinsert
  coselect := h.coselect
  codiscover := h.codiscover.trans
  wakeup hsig := .inl (h.nsdWakeup ▸ hsig)

variable {c : CoreCall} {r r' : CallPc α}

theorem callStep_rely (h : core.callStep c r = some (core', r')) : CallRely c core core' := by
  cases c with
  | nsdSetupComplete =>
    cases r <;> cases h <;> exact ⟨⟨rfl, rfl, rfl, rfl⟩, rfl, rfl, .inl⟩
  | coeventdSetupComplete =>
    cases r <;> cases h <;> exact ⟨⟨rfl, rfl, rfl, rfl⟩, rfl, rfl, .inl⟩
  | ipcdSetupComplete =>
    cases r <;> cases h <;> exact ⟨⟨rfl, rfl, rfl, rfl⟩, rfl, rfl, fun _ => .inr rfl⟩
  | coprocUserInit =>
    cases r <;> cases h <;> exact ⟨⟨rfl, rfl, rfl, rfl⟩, rfl, rfl, .inl⟩

/-- The other calls hand out what is stored. They hand it out only after nsd has returned. -/
theorem callStep_callInv {returned : Prop} (hall : returned → AllStored b core)
    (hinited : core.ukernInited = true → returned) (hinv : CallInv b returned c r)
    (h : core.callStep c r = some (core', r')) : CallInv b returned c r' := by
  cases c with
  | nsdSetupComplete | coeventdSetupComplete | ipcdSetupComplete => exact hinv
  | coprocUserInit =>
    cases r with
    | entry =>
      cases hflag : core.ukernInited with
      | false =>
        simp only [Core.callStep, Core.userInitStep, hflag] at h
        cases h
        trivial
      | true =>
        simp only [Core.callStep, Core.userInitStep, hflag] at h
        cases h
        exact hinited hflag
    | getRoot =>
      cases h
      exact ⟨hinv, (hall hinv).ns⟩
    | getCodiscover ns =>
      cases h
      exact ⟨hinv.1, hinv.2, (hall hinv.1).codiscover⟩
    | getCoinsert ns codiscover =>
      cases h
      exact ⟨hinv.1, hinv.2.1, hinv.2.2, (hall hinv.1).coinsert⟩
    | getCoselect ns codiscover coinsert =>
      cases h
      exact ⟨hinv.2.1, hinv.2.2.1, hinv.2.2.2, (hall hinv.1).coselect⟩
    | setInited | setRunning | setAllRunning | again | done | user => cases h

/-- What the calls rely on about the other threads is that nsd does not come back. -/
theorem CallInv.mono {R R' : Prop} (hR : R → R') (h : CallInv b R c r) : CallInv b R' c r := by
  cases c with
  | nsdSetupComplete | coeventdSetupComplete | ipcdSetupComplete => exact hR h
  | coprocUserInit =>
    cases r with
    | getRoot => exact hR h
    | getCodiscover | getCoinsert | getCoselect => exact ⟨hR h.1, h.2⟩
    | user => exact h
    | entry | setInited | setRunning | setAllRunning | again | done => trivial

/-- `nsd_setup` stores no codiscover SCB. -/
theorem nsdStep_codiscover (h : core.nsdStep b pc = some (core', pc')) {c : α}
    (hc : core'.codiscoverScb = some c) : core.codiscoverScb = some c := by
  cases pc with
  | entry | asleep =>
    simp only [Core.nsdStep, Option.ite_none_left_eq_some] at h
    cases h.2
    exact hc
  | clear =>
    cases h
    cases hc
  | putCoinsert | putCoselect | putRoot | putStatus | signal | load | unlock =>
    cases h
    exact hc
  | replied => cases h

/-- `coserviced_setup` stores what coserviced has brought. -/
theorem coservicedStep_codiscover (h : core.coservicedStep b q = some (core', q')) {c : α}
    (hc : core'.codiscoverScb = some c) : core.codiscoverScb = some c ∨ c = b.codiscover := by
  cases q with
  | entry | asleep =>
    simp only [Core.coservicedStep, Option.ite_none_left_eq_some] at h
    cases h.2
    exact .inl hc
  | load =>
    cases hns : core.rootNamespace <;> simp only [Core.coservicedStep, hns] at h <;> cases h <;>
      exact .inl hc
  | putCodiscover =>
    cases h
    exact .inr (Option.some.inj hc).symm
  | reload | getCoinsert | getCoselect | signal | unlock =>
    cases h
    exact .inl hc
  | replied => cases h

theorem nsdStep_inited (h : core.nsdStep b pc = some (core', pc')) :
    core'.ukernInited = core.ukernInited := by
  cases pc with
  | entry | asleep =>
    simp only [Core.nsdStep, Option.ite_none_left_eq_some] at h
    cases h.2
    rfl
  | clear | putCoinsert | putCoselect | putRoot | putStatus | signal | load | unlock =>
    cases h
    rfl
  | replied => cases h

theorem coservicedStep_inited (h : core.coservicedStep b q = some (core', q')) :
    core'.ukernInited = core.ukernInited := by
  cases q with
  | entry | asleep =>
    simp only [Core.coservicedStep, Option.ite_none_left_eq_some] at h
    cases h.2
    rfl
  | load =>
    cases hns : core.rootNamespace <;> simp only [Core.coservicedStep, hns] at h <;> cases h <;> rfl
  | reload | getCoinsert | getCoselect | putCodiscover | signal | unlock =>
    cases h
    rfl
  | replied => cases h

end Steps

/-! ### Every run -/

section Runs
variable {b : Brought α} {s s' : Handshake α}

theorem handshakeStep_cases {act : HandshakeAct} (h : s.step b act = some s') :
    (∃ core pc, act = .nsd ∧ s.core.nsdStep b s.nsd = some (core, pc) ∧
      s' = { s with core, nsd := pc }) ∨
    (∃ core pc, act = .coserviced ∧ s.core.coservicedStep b s.coserviced = some (core, pc) ∧
      s' = { s with core, coserviced := pc }) ∨
    (∃ c, act = .call c ∧ s.mayCall c = true ∧
      s' = { s with calls := s.calls ++ [(c, .entry)] }) ∨
    ∃ r c pc core pc', act = .advance r ∧ s.calls[r]? = some (c, pc) ∧
      s.core.callStep c pc = some (core, pc') ∧
      s' = { s with core, calls := s.calls.set r (c, pc') } := by
  cases act with
  | nsd =>
    obtain ⟨⟨core, pc⟩, hstep, rfl⟩ := Option.map_eq_some_iff.mp h
    exact .inl ⟨core, pc, rfl, hstep, rfl⟩
  | coserviced =>
    obtain ⟨⟨core, pc⟩, hstep, rfl⟩ := Option.map_eq_some_iff.mp h
    exact .inr (.inl ⟨core, pc, rfl, hstep, rfl⟩)
  | call c =>
    simp only [Handshake.step, Option.ite_none_right_eq_some] at h
    exact .inr (.inr (.inl ⟨c, rfl, h.1, (Option.some.inj h.2).symm⟩))
  | advance r =>
    obtain ⟨⟨c, pc⟩, hr, h⟩ := Option.bind_eq_some_iff.mp h
    obtain ⟨⟨core, pc'⟩, hstep, h⟩ := Option.bind_eq_some_iff.mp h
    exact .inr (.inr (.inr ⟨r, c, pc, core, pc', rfl, hr, hstep, (Option.some.inj h).symm⟩))

theorem HandshakeInv.allStored (h : HandshakeInv b s) (hret : s.nsdReturned = true) :
    AllStored b s.core := by
  have hnsd := h.nsd
  cases hpc : s.nsd with
  | replied =>
    rw [hpc] at hnsd
    exact hnsd.1
  | _ => simp [Handshake.nsdReturned, hpc] at hret

/-- A call begins with nothing loaded. -/
theorem callInv_entry {c : CoreCall} (h : s.mayCall c = true) :
    CallInv b (s.nsdReturned = true) c .entry := by
  cases c with
  | coprocUserInit => trivial
  | nsdSetupComplete | coeventdSetupComplete | ipcdSetupComplete => exact h

theorem handshakeInv_step {act : HandshakeAct} (hinv : HandshakeInv b s) (htime : Timely s act)
    (h : s.step b act = some s') : HandshakeInv b s' := by
  obtain ⟨core, pc, rfl, hstep, rfl⟩ | ⟨core, pc, rfl, hstep, rfl⟩ | ⟨c, rfl, hmay, rfl⟩ |
    ⟨r, c, pc, core, pc', rfl, hr, hstep, rfl⟩ := handshakeStep_cases h
  · -- `nsd_setup` had not returned, so nothing is known of the other calls but the entries.
    have hret (hold : s.nsdReturned = true) : False := by
      cases hpc : s.nsd with
      | replied => simp [hpc, Core.nsdStep] at hstep
      | _ => simp [Handshake.nsdReturned, hpc] at hold
    exact {
      codiscover := fun c hc => hinv.codiscover c (nsdStep_codiscover hstep hc)
      nsd := nsdStep_nsdInv hinv.codiscover hinv.nsd htime hstep
      coserviced := hinv.coserviced.mono (nsdStep_rely hinv.nsd hstep)
      inited := fun hi => (hret (hinv.inited (nsdStep_inited hstep ▸ hi))).elim
      calls := fun x hx => (hinv.calls x hx).mono fun hold => (hret hold).elim }
  · exact {
      codiscover := fun c hc =>
        (coservicedStep_codiscover hstep hc).elim (hinv.codiscover c) id
      nsd := hinv.nsd.mono (coservicedStep_rely hinv.coserviced hstep)
      coserviced := coservicedStep_coservicedInv hinv.nsd hinv.coserviced htime hstep
      inited := fun hi => hinv.inited (coservicedStep_inited hstep ▸ hi)
      calls := hinv.calls }
  · refine ⟨hinv.codiscover, hinv.nsd, hinv.coserviced, hinv.inited, fun x hx => ?_⟩
    rcases List.mem_append.mp hx with hold | hnew
    · exact hinv.calls x hold
    · cases List.mem_singleton.mp hnew
      exact callInv_entry hmay
  · have hrely := callStep_rely hstep
    have hcall := hinv.calls _ (List.mem_of_getElem? hr)
    have hinited (hi : core.ukernInited = true) : s.nsdReturned = true := by
      rcases hrely.inited hi with hold | rfl
      · exact hinv.inited hold
      · exact hcall
    refine ⟨fun d hd => hinv.codiscover d (hrely.codiscover ▸ hd), hinv.nsd.mono hrely.nsdRely,
      hinv.coserviced.mono (hrely.coservicedRely fun hs => .inl (hrely.coservicedWakeup ▸ hs)),
      hinited, fun x hx => ?_⟩
    rcases List.mem_or_eq_of_mem_set hx with hold | rfl
    · exact hinv.calls x hold
    · exact callStep_callInv hinv.allStored hinv.inited hcall hstep

theorem handshakeInv_init (b : Brought α) : HandshakeInv b (initHandshake α) where
  codiscover _ h := nomatch h
  nsd := rfl
  coserviced := trivial
  inited h := nomatch h
  calls _ h := nomatch h

/-- Where the invariant holds, the replies carry what was brought. -/
theorem HandshakeInv.handsOut (h : HandshakeInv b s) : HandsOut b s where
  coserviced ns coinsert coselect hpc := by
    have hinv := h.coserviced
    rw [hpc] at hinv
    exact hinv.2
  nsd codiscover hpc := by
    have hinv := h.nsd
    rw [hpc] at hinv
    exact hinv.2
  user ns codiscover coinsert coselect hmem := by
    obtain ⟨rfl, rfl, rfl, rfl⟩ := h.calls _ hmem
    exact ⟨rfl, rfl, rfl, rfl⟩

/-- In every run in which a return from `pthread_cond_wait` was signalled, or comes after the
capability was stored, every reply carries what was brought. -/
theorem handshake_hands_out (b : Brought α) (s : Handshake α)
    (h : Reach (Handshake.step b) Timely (initHandshake α) s) : HandsOut b s := by
  have hinv : HandshakeInv b s := by
    refine Reach.invariant (handshakeInv_init b) ?_ h
    intro t act t' _ ht htime hstep
    exact handshakeInv_step ht htime hstep
  exact hinv.handsOut

end Runs

/-- `Timely`, as a test. -/
def timelyCheck [DecidableEq α] (s : Handshake α) : HandshakeAct → Bool
  | .nsd => s.nsd ≠ .asleep || s.core.nsdWakeup = .signalled || s.core.codiscoverScb.isSome
  | .coserviced => s.coserviced ≠ .asleep || s.core.coservicedWakeup = .signalled ||
      s.core.rootNamespace.isSome
  | _ => true

theorem timely_of_check [DecidableEq α] (s : Handshake α) (act : HandshakeAct)
    (h : timelyCheck s act = true) : Timely s act := by
  cases act with
  | nsd =>
    intro hpc
    simpa [timelyCheck, hpc, Option.isSome_iff_ne_none] using h
  | coserviced =>
    intro hpc
    simpa [timelyCheck, hpc, Option.isSome_iff_ne_none] using h
  | call | advance => trivial

/-- Capabilities that are told apart by their numbers. -/
def numbered : Brought Nat := ⟨1, 2, 3, 4⟩

/-- coserviced is first and waits. nsd wakes it, and the calls that complete the start-up and a
user's call follow. -/
def coservicedFirst : List HandshakeAct :=
  List.replicate 2 HandshakeAct.coserviced ++ List.replicate 7 HandshakeAct.nsd ++
    List.replicate 7 HandshakeAct.coserviced ++ List.replicate 3 HandshakeAct.nsd ++
    [HandshakeAct.call .nsdSetupComplete] ++ List.replicate 4 (HandshakeAct.advance 0) ++
    [HandshakeAct.call .ipcdSetupComplete] ++ List.replicate 3 (HandshakeAct.advance 1) ++
    [HandshakeAct.call .coprocUserInit] ++ List.replicate 5 (HandshakeAct.advance 2)

theorem handshake_hands_out_numbered :
    ∃ s, Reach (Handshake.step numbered) Timely (initHandshake Nat) s ∧
      s.coserviced = .replied (some 1) (some 2) (some 3) ∧
      (CoreCall.coprocUserInit, CallPc.user (some 1) (some 4) (some 2) (some 3)) ∈ s.calls ∧
      HandsOut numbered s := by
  obtain ⟨s, hs⟩ : ∃ s, runFrom (Handshake.step numbered) (initHandshake Nat) coservicedFirst =
      some s := Option.isSome_iff_exists.mp (by decide)
  have hreach : Reach (Handshake.step numbered) Timely (initHandshake Nat) s :=
    reach_of_checkAll timely_of_check _ _ _ (by decide) hs
  have hpc : s.coserviced = .replied (some 1) (some 2) (some 3) :=
    eq_of_map_runFrom (fun s => s.coserviced) hs (by decide)
  have hcall : s.calls[2]?
      = some (CoreCall.coprocUserInit, CallPc.user (some 1) (some 4) (some 2) (some 3)) :=
    eq_of_map_runFrom (fun s => s.calls[2]?) hs (by decide)
  exact ⟨s, hreach, hpc, List.mem_of_getElem? hcall, handshake_hands_out numbered s hreach⟩

/-- coserviced is alone. Its wait returns without a cause, and the reply carries three times
`NULL`. -/
theorem coserviced_gets_null :
    ∃ s, Reach (Handshake.step numbered) anyAct (initHandshake Nat) s ∧
      s.coserviced = .replied none none none ∧ ¬HandsOut numbered s := by
  obtain ⟨s, hs⟩ : ∃ s, runFrom (Handshake.step numbered) (initHandshake Nat)
      (List.replicate 9 .coserviced) = some s := Option.isSome_iff_exists.mp (by decide)
  have hpc : s.coserviced = .replied none none none :=
    eq_of_map_runFrom (fun s => s.coserviced) hs (by decide)
  refine ⟨s, reach_of_runFrom _ _ _ hs, hpc, fun h => ?_⟩
  exact absurd (h.coserviced _ _ _ hpc).1 (by decide)

end Comsg.Proofs.Coprocd
