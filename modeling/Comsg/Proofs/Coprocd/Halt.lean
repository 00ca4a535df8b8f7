import Comsg.Coprocd.Monitor
import Comsg.Lib.Transition

/-!
# `Comsg.Proofs.Coprocd.Halt`: a fatal failure halts nothing

`kill_module` wants the status of the module to be `RUNNING`, or `STARTING` for a module that is
started on demand. The table declares every module as `PENDING`, and no function of coprocd stores
another status (`SameStatuses`). So `halt_and_catch_fire` goes through the modules and sends no
signal, in every state that is reached (`halt_sends_nothing`).
-/

set_option autoImplicit false

namespace Comsg.Proofs.Coprocd

open Comsg.Lib
open Comsg.Coprocd
open Comsg.Coprocd.Manager

/-- The status of each module. -/
def statuses (s : Manager) : List Status := s.modules.map UkernelModule.status

/-- The modules have the same status as before. -/
def SameStatuses (s s' : Manager) : Prop := statuses s' = statuses s

section Functions
variable {s s' : Manager} {ref : DaemonRef} {k : Nat} {reason : Option DaemonRef} {o : Launch}

theorem sameStatuses_modifyDaemon {f : UkernelDaemon → UkernelDaemon} :
    SameStatuses s (s.modifyDaemon ref f) := by
  refine List.ext_getElem? fun j => ?_
  simp only [statuses, modifyDaemon, List.getElem?_map, List.getElem?_modify]
  cases s.modules[j]? with
  | none => rfl
  | some m =>
    show some (if ref.module = j then m.modifyDaemon ref.daemon f else m).status = some m.status
    split <;> rfl

theorem SameStatuses.refl (s : Manager) : SameStatuses s s := rfl

theorem SameStatuses.trans {s'' : Manager} (h : SameStatuses s s') (h' : SameStatuses s' s'') :
    SameStatuses s s'' :=
  Eq.trans h' h

theorem sameStatuses_foldl {α : Type} {f : Manager → α → Manager}
    (h : ∀ s a, SameStatuses s (f s a)) (xs : List α) (s : Manager) :
    SameStatuses s (xs.foldl f s) := by
  induction xs generalizing s with
  | nil => rfl
  | cons a xs ih => exact (h s a).trans (ih (f s a))

theorem sameStatuses_killUnless : SameStatuses s (killUnless reason s ref) := by
  unfold killUnless
  split
  · rfl
  · split
    · rfl
    · split
      · rfl
      · exact sameStatuses_modifyDaemon

theorem sameStatuses_killModule : SameStatuses s (s.killModule k reason).1 := by
  unfold killModule
  split
  · rfl
  · split
    · rfl
    · split
      · rfl
      · split
        · rfl
        · split
          · dsimp only
            split
            · rfl
            · exact sameStatuses_foldl (fun _ _ => sameStatuses_modifyDaemon) _ (s.kill _ _)
          · exact sameStatuses_killUnless.trans
              (sameStatuses_foldl (fun _ _ => sameStatuses_killUnless) _ _)

theorem sameStatuses_reap {wait : DaemonRef → WaitResult} :
    SameStatuses s (reap wait reason s ref) := by
  unfold reap
  split
  · rfl
  · split
    · exact sameStatuses_modifyDaemon
    · dsimp only
      split
      · have hpid : SameStatuses s (s.setPid ref 0) := sameStatuses_modifyDaemon
        exact hpid.trans sameStatuses_modifyDaemon
      · exact sameStatuses_modifyDaemon
    · rfl
    · rfl

theorem sameStatuses_killAndReapModule {wait : DaemonRef → WaitResult} :
    SameStatuses s (s.killAndReapModule k reason wait) :=
  sameStatuses_killModule.trans (sameStatuses_foldl (fun _ _ => sameStatuses_reap) _ _)

theorem sameStatuses_initDaemon : SameStatuses s (s.initDaemon ref o).1 := by
  unfold initDaemon
  dsimp only
  split
  · exact sameStatuses_modifyDaemon
  · have hstarting : SameStatuses s (s.setStatus ref .starting) := sameStatuses_modifyDaemon
    exact hstarting.trans sameStatuses_modifyDaemon

theorem sameStatuses_initDaemons {is : List Nat} {expect started : Bool}
    (h : initDaemons k o is expect s = some (s', started)) : SameStatuses s s' := by
  induction is generalizing s expect with
  | nil =>
    cases h
    rfl
  | cons i is ih =>
    have hinit : SameStatuses s (s.initDaemon ⟨k, i⟩ o).1 := sameStatuses_initDaemon
    simp only [initDaemons] at h
    split at h
    · cases h
    · split at h
      · cases h
      · split at h
        · exact ih h
        · split at h
          · rename_i heq
            cases h
            rw [heq] at hinit
            exact hinit
          · rename_i heq
            rw [heq] at hinit
            split at h
            · split at h
              · exact (hinit.trans sameStatuses_modifyDaemon).trans (ih h)
              · exact (hinit.trans sameStatuses_modifyDaemon).trans (ih h)
              · cases h
              · cases h
                exact hinit.trans sameStatuses_modifyDaemon
            · exact hinit.trans (ih h)

theorem sameStatuses_initModule {started : Bool} (h : s.initModule k o = some (s', started)) :
    SameStatuses s s' := by
  obtain ⟨m, -, h⟩ := Option.bind_eq_some_iff.mp h
  exact sameStatuses_initDaemons h

theorem sameStatuses_initCoreDaemons {is : List Nat} (h : initCoreDaemons o is s = some s') :
    SameStatuses s s' := by
  induction is generalizing s with
  | nil =>
    cases h
    rfl
  | cons i is ih =>
    have hinit : SameStatuses s (s.initDaemon ⟨0, i⟩ o).1 := sameStatuses_initDaemon
    simp only [initCoreDaemons] at h
    split at h
    · rename_i heq
      rw [heq] at hinit
      split at h
      · split at h
        · exact (hinit.trans sameStatuses_modifyDaemon).trans (ih h)
        · exact (hinit.trans sameStatuses_modifyDaemon).trans (ih h)
        · cases h
      · exact hinit.trans (ih h)
    · cases h

theorem sameStatuses_initCore {progname : String} (h : s.initCore progname o = some s') :
    SameStatuses s s' := by
  obtain ⟨m, -, h⟩ := Option.bind_eq_some_iff.mp h
  obtain ⟨d, -, h⟩ := Option.bind_eq_some_iff.mp h
  split at h
  · cases h
  · dsimp only at h
    split at h
    · cases h
    · have hself : SameStatuses s (s.setPid ⟨0, 0⟩ s.mypid) := sameStatuses_modifyDaemon
      exact (hself.trans sameStatuses_modifyDaemon).trans (sameStatuses_initCoreDaemons h)

theorem sameStatuses_initModules {ks : List Nat} (h : initModules o ks s = some s') :
    SameStatuses s s' := by
  induction ks generalizing s with
  | nil =>
    cases h
    rfl
  | cons k ks ih =>
    simp only [initModules] at h
    split at h
    · rename_i hinit
      split at h
      · cases h
      · exact (sameStatuses_initModule hinit).trans (ih h)
    · cases h

theorem sameStatuses_initMicrokernel {progname : String}
    (h : s.initMicrokernel progname o = some s') : SameStatuses s s' := by
  obtain ⟨t, hcore, h⟩ := Option.bind_eq_some_iff.mp h
  exact (sameStatuses_initCore hcore).trans (sameStatuses_initModules h)

theorem sameStatuses_killNext : SameStatuses s (killNext reason s k) := by
  unfold killNext
  split
  · rfl
  · exact sameStatuses_killModule

theorem sameStatuses_markForRestart {module : Option Nat} :
    SameStatuses s (s.markForRestart module ref) := by
  unfold markForRestart
  split <;> rfl

theorem sameStatuses_daemonDied {pid : Nat} {wait : WaitResult} :
    SameStatuses s (s.daemonDied pid wait) := by
  have hstatus {ref : DaemonRef} : SameStatuses s (s.setStatus ref .died) :=
    sameStatuses_modifyDaemon
  cases wait with
  | reaped =>
    simp only [daemonDied]
    split
    · rfl
    · split
      · split
        · exact hstatus.trans (sameStatuses_foldl (fun _ _ => sameStatuses_killNext) _ _)
        · split
          · exact hstatus.trans sameStatuses_killModule
          · exact hstatus.trans sameStatuses_markForRestart
          · exact hstatus.trans sameStatuses_markForRestart
          · exact hstatus.trans sameStatuses_modifyDaemon
          · exact hstatus
      · rfl
  | _ => rfl

theorem sameStatuses_killAndReapDaemon {pid : Nat} {r : Restart} :
    SameStatuses s (s.killAndReapDaemon ref pid r) := by
  unfold killAndReapDaemon
  dsimp only
  split
  · rfl
  · split
    · rfl
    · rfl
    · rfl
    · split
      · have hpid : SameStatuses s ((s.kill ref pid).setPid ref 0) := sameStatuses_modifyDaemon
        exact hpid.trans sameStatuses_modifyDaemon
      · rfl

theorem sameStatuses_restartDaemon {r : Restart} : SameStatuses s (s.restartDaemon ref r) := by
  unfold restartDaemon
  split
  · rfl
  · rename_i d hd
    split
    · rfl
    · have hkilled : SameStatuses s (if d.pid ≠ 0 then s.killAndReapDaemon ref d.pid r else s) := by
        split
        · exact sameStatuses_killAndReapDaemon
        · rfl
      dsimp only
      -- What follows does not depend on whether there was a process to kill.
      generalize (if d.pid ≠ 0 then s.killAndReapDaemon ref d.pid r else s) = t at hkilled ⊢
      split
      · exact hkilled
      · split
        · exact hkilled
        · split
          · exact hkilled.trans sameStatuses_modifyDaemon
          · exact (hkilled.trans (sameStatuses_modifyDaemon (s := t))).trans
              sameStatuses_modifyDaemon

theorem sameStatuses_restartModule {r : Restart} : SameStatuses s (s.restartModule k ref r) := by
  unfold restartModule
  split
  · split
    · rfl
    · have hkilled : SameStatuses s (s.killAndReapModule k (some ref) r.wait) :=
        sameStatuses_killAndReapModule
      dsimp only
      generalize s.killAndReapModule k (some ref) r.wait = t at hkilled ⊢
      split
      · exact hkilled
      · split
        · exact hkilled
        · rename_i t' started hinit
          have hsame : SameStatuses s t' := hkilled.trans (sameStatuses_initModule hinit)
          split
          · exact hsame
          · exact hsame
  · rfl

/-- No step stores the status of a module. -/
theorem sameStatuses_step {act : ManagerAct} (h : s.step act = some s') : SameStatuses s s' := by
  simp only [step] at h
  split at h
  · cases h
  · cases act with
    | store ref status =>
      cases h
      exact sameStatuses_modifyDaemon
    | sigchld pid wait =>
      dsimp only at h
      split at h
      · cases h
        exact sameStatuses_daemonDied
      · cases h
        rfl
    | runloop r =>
      cases h
      unfold runloop
      split
      · exact sameStatuses_restartModule
      · rfl
      · exact sameStatuses_restartDaemon
      · rfl

end Functions

/-! ### `halt_and_catch_fire` -/

/-- The daemon has been started. -/
def Started (d : UkernelDaemon) : Prop := d.status ≠ .pending

/-- The signals kill the microkernel after the death of `cause`: all other daemons that were
started, those of the core after the others, and coprocd itself after all of them. -/
structure HaltsMicrokernel (s : Manager) (cause : DaemonRef) (kills : List Kill) : Prop where
  all : ∀ ref d, s.daemon? ref = some d → Started d → ref ≠ cause → ⟨ref, d.pid⟩ ∈ kills
  core_last : ∀ (i j : Nat) x y, kills[i]? = some x → kills[j]? = some y → x.daemon.module = 0 →
    y.daemon.module ≠ 0 → j < i
  self_last : ∃ (i : Nat) (x : Kill), kills[i]? = some x ∧ x.pid = s.mypid ∧
    ∀ (j : Nat) y, kills[j]? = some y → y.pid ≠ s.mypid → j < i

section Halt
variable {s s' : Manager} {k : Nat} {reason : Option DaemonRef}

/-- `kill_module` returns 0 at once for a module that was not marked as running. -/
theorem killModule_pending {m : UkernelModule} (hm : s.modules[k]? = some m)
    (hpending : m.status = .pending) : s.killModule k reason = (s, 0) := by
  simp only [killModule, hm, hpending, ne_eq, reduceCtorEq, not_false_eq_true, and_true]
  by_cases hflag : HasFlag m.flags onDemand
  · rw [if_pos hflag]
  · rw [if_neg hflag, if_pos hflag]

/-- A loop over modules that were not marked as running. -/
theorem foldl_killNext_pending {ks : List Nat} (h : ∀ m ∈ s.modules, m.status = .pending)
    (hks : ∀ k ∈ ks, k < s.modules.length) : ks.foldl (killNext reason) s = s := by
  induction ks with
  | nil => rfl
  | cons k ks ih =>
    have hlt : k < s.modules.length := hks k List.mem_cons_self
    have hsame : killNext reason s k = s := by
      unfold killNext
      split
      · rfl
      · rw [killModule_pending (List.getElem?_eq_getElem hlt) (h _ (List.getElem_mem hlt))]
    rw [List.foldl_cons, hsame]
    exact ih fun k hk => hks k (List.mem_cons_of_mem _ hk)

theorem pending_iff : (∀ m ∈ s.modules, m.status = .pending) ↔ ∀ x ∈ statuses s, x = .pending := by
  simp [statuses]

/-- `halt_and_catch_fire` sends no signal. -/
theorem haltAndCatchFire_log {cause : DaemonRef} (h : ∀ m ∈ s.modules, m.status = .pending)
    (hpos : 0 < s.modules.length) : (s.haltAndCatchFire cause).log = s.log := by
  unfold haltAndCatchFire
  dsimp only
  rw [foldl_killNext_pending (s := { s with handler := .justReap }) h]
  intro k hk
  show k < s.modules.length
  rcases List.mem_append.mp hk with hk | hk
  · have hlt := (List.mem_range'_1.mp hk).2
    have hge := (List.mem_range'_1.mp hk).1
    omega
  · rw [List.mem_singleton.mp hk]
    exact hpos

/-- In every state that is reached after the launch, the modules are still marked as pending. -/
theorem pending_of_reach {modules : List UkernelModule} {mypid : Nat} {progname : String}
    {o : Launch} {s₀ : Manager} (ht : ∀ m ∈ modules, Declared m)
    (hinit : (boot mypid modules).initMicrokernel progname o = some s₀)
    (h : Reach Manager.step anyAct s₀ s) : ∀ m ∈ s.modules, m.status = .pending := by
  have hlaunched := sameStatuses_initMicrokernel hinit
  have hsame : SameStatuses s₀ s :=
    h.invariant (SameStatuses.refl s₀)
      fun _ _ _ _ hinv _ hs => SameStatuses.trans hinv (sameStatuses_step hs)
  have hall : statuses s = statuses (boot mypid modules) := hlaunched.trans hsame
  rw [pending_iff, hall, ← pending_iff]
  exact fun m hm => (ht m hm).status

/-- For every table and every state that is reached after the launch: when the death of a daemon of
a core module with the action `HCF` is handled, no signal is sent, and the microkernel is not
halted. -/
theorem halt_sends_nothing {modules : List UkernelModule} {mypid : Nat} {progname : String}
    {o : Launch} {s₀ : Manager} (ht : ∀ m ∈ modules, Declared m)
    (hinit : (boot mypid modules).initMicrokernel progname o = some s₀)
    (h : Reach Manager.step anyAct s₀ s) {pid : Nat} {cause : DaemonRef} {m : UkernelModule}
    {d : UkernelDaemon} (hfind : s.findDaemon pid = some cause)
    (hm : s.modules[cause.module]? = some m) (hd : s.daemon? cause = some d)
    (hcore : m.type = .core) (hhcf : d.failAct = .hcf) (hhandler : s.handler = .daemonDied)
    (hs : s.step (.sigchld pid .reaped) = some s') :
    s'.log = s.log ∧ ∀ kills, s'.log = s.log ++ kills → ¬HaltsMicrokernel s cause kills := by
  have hpending := pending_of_reach ht hinit h
  have hlog : s'.log = s.log := by
    simp only [step] at hs
    split at hs
    · cases hs
    · rw [hhandler] at hs
      cases hs
      simp only [daemonDied, hfind, hm, hd, hcore, hhcf, and_self, if_true]
      have hstatuses : SameStatuses s (s.setStatus cause .died) := sameStatuses_modifyDaemon
      have hpending' : ∀ m ∈ (s.setStatus cause .died).modules, m.status = .pending := by
        rw [pending_iff, hstatuses, ← pending_iff]
        exact hpending
      refine haltAndCatchFire_log hpending' ?_
      have hlt := (List.getElem?_eq_some_iff.mp hm).1
      simp only [setStatus, modifyDaemon, List.length_modify]
      omega
  refine ⟨hlog, fun kills hkills hhalts => ?_⟩
  -- Not even coprocd itself gets a signal.
  obtain ⟨i, x, hx, -⟩ := hhalts.self_last
  have hnil : kills = [] := by
    rw [hlog] at hkills
    simpa using hkills
  simp [hnil] at hx

end Halt

/-- The core module: `CORE_DAEMON` for each of its daemons, and unused entries behind them. -/
def coreModule : UkernelModule where
  moduleName := "core"
  type := .core
  ndaemons := 5
  status := .pending
  flags := 0
  init := ⟨true, true⟩
  fini := none
  daemons := ["coprocd", "nsd", "coserviced", "coeventd", "ipcd"].map
      (fun name => ⟨name, 0, .hcf, synchronous, .pending⟩) ++
    List.replicate 7 ⟨"", 0, .hcf, 0, .pending⟩
  length_eq := rfl
  ndaemons_le := Nat.le_add_right 5 7

/-- Daemon `i` gets the pid `i + 1`, and comes to run. -/
def allRun : Launch := ⟨fun ref => some (ref.daemon + 1), fun _ => .running⟩

theorem coreModule_declared : ∀ m ∈ [coreModule], Declared m := by
  rintro m hm
  obtain rfl := List.mem_singleton.mp hm
  exact ⟨rfl, by decide⟩

/-- What the launch of the core computes. -/
theorem eq_of_launch {τ : Type} {s₀ : Manager} (f : Manager → τ) {b : τ}
    (hinit : (boot 1 [coreModule]).initMicrokernel "coprocd" allRun = some s₀)
    (hf : ((boot 1 [coreModule]).initMicrokernel "coprocd" allRun).map f = some b) : f s₀ = b := by
  rw [hinit] at hf
  exact Option.some.inj hf

/-- coprocd has started the core, and nsd dies. -/
theorem halt_sends_nothing_nsd :
    ∃ s₀ s', (boot 1 [coreModule]).initMicrokernel "coprocd" allRun = some s₀ ∧
      s₀.step (.sigchld 2 .reaped) = some s' ∧ s'.log = s₀.log := by
  obtain ⟨s₀, hinit⟩ : ∃ s₀,
      (boot 1 [coreModule]).initMicrokernel "coprocd" allRun = some s₀ :=
    Option.isSome_iff_exists.mp (by decide)
  obtain ⟨s', hs⟩ : ∃ s', s₀.step (.sigchld 2 .reaped) = some s' :=
    Option.isSome_iff_exists.mp
      (eq_of_launch (fun s => (s.step (.sigchld 2 .reaped)).isSome) hinit (by decide))
  have hfind : s₀.findDaemon 2 = some ⟨0, 1⟩ :=
    eq_of_launch (fun s => s.findDaemon 2) hinit (by decide)
  have hhandler : s₀.handler = .daemonDied := eq_of_launch Manager.handler hinit (by decide)
  have htype : s₀.modules[0]?.map UkernelModule.type = some .core :=
    eq_of_launch (fun s => s.modules[0]?.map UkernelModule.type) hinit (by decide)
  have hact : (s₀.daemon? ⟨0, 1⟩).map UkernelDaemon.failAct = some .hcf :=
    eq_of_launch (fun s => (s.daemon? ⟨0, 1⟩).map UkernelDaemon.failAct) hinit (by decide)
  obtain ⟨m, hm, hcore⟩ := Option.map_eq_some_iff.mp htype
  obtain ⟨d, hd, hhcf⟩ := Option.map_eq_some_iff.mp hact
  exact ⟨s₀, s', hinit, hs, (halt_sends_nothing coreModule_declared hinit .init hfind hm hd hcore
    hhcf hhandler hs).1⟩

/-- nsd, a daemon of the core with the action `HCF`, dies after the launch. coserviced runs with
pid 3, and neither it nor coprocd gets a signal. -/
theorem nsd_death_halts_nothing :
    ∃ s₀ s', (boot 1 [coreModule]).initMicrokernel "coprocd" allRun = some s₀ ∧
      s₀.step (.sigchld 2 .reaped) = some s' ∧
      (s₀.daemon? ⟨0, 1⟩).map UkernelDaemon.failAct = some .hcf ∧
      (s₀.daemon? ⟨0, 2⟩).map (fun d => (d.pid, d.status)) = some (3, .running) ∧
      s₀.log = [] ∧ s'.log = [] ∧ ¬HaltsMicrokernel s₀ ⟨0, 1⟩ [] := by
  obtain ⟨s₀, hinit⟩ : ∃ s₀,
      (boot 1 [coreModule]).initMicrokernel "coprocd" allRun = some s₀ :=
    Option.isSome_iff_exists.mp (by decide)
  have hlog : (s₀.step (.sigchld 2 .reaped)).map Manager.log = some [] :=
    eq_of_launch (fun s => (s.step (.sigchld 2 .reaped)).map Manager.log) hinit (by decide)
  have hother : (s₀.daemon? ⟨0, 2⟩).map (fun d => (d.pid, d.status)) = some (3, .running) :=
    eq_of_launch (fun s => (s.daemon? ⟨0, 2⟩).map fun d => (d.pid, d.status)) hinit (by decide)
  obtain ⟨s', hs, hlog'⟩ := Option.map_eq_some_iff.mp hlog
  refine ⟨s₀, s', hinit, hs, ?_, hother, eq_of_launch Manager.log hinit (by decide), hlog',
    fun hhalts => ?_⟩
  · exact eq_of_launch (fun s => (s.daemon? ⟨0, 1⟩).map UkernelDaemon.failAct) hinit (by decide)
  · obtain ⟨d, hd, hrunning⟩ := Option.map_eq_some_iff.mp hother
    have hstarted : Started d := by
      have hstatus : d.status = .running := congrArg Prod.snd hrunning
      simp [Started, hstatus]
    have hsent := hhalts.all ⟨0, 2⟩ d hd hstarted (by decide)
    cases hsent

end Comsg.Proofs.Coprocd
