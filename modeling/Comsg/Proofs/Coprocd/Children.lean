import Comsg.Lib.Transition
import Comsg.Proofs.Coprocd.Restart

/-!
# `Comsg.Proofs.Coprocd.Children`: coprocd keeps track of its children

`daemon_died` looks for the entry that has the pid of the process that died. So each process must
have an entry, and no entry may keep a pid that another process has. `Tracked` is the invariant of
a run, and `tracked_step` keeps it.

A restart of a module starts its daemons over the entries of those that still run, since nothing has
killed them. `ModuleGone` keeps such restarts out of the run, and the last part of
`children_tracked` says what comes of one: the process that still ran has no entry any more, and its
death faults coprocd.
-/

set_option autoImplicit false

namespace Comsg.Proofs.Coprocd

open Comsg.Lib
open Comsg.Coprocd
open Comsg.Coprocd.Manager

/-! ### Every child has its entry -/

/-- Each child has the entry of its daemon, no two entries have one pid, and a daemon that is to be
restarted has no process. -/
structure Tracked (s : Supervision) : Prop where
  pending : ∀ m ∈ s.manager.modules, m.status = .pending
  entry : ∀ c ∈ s.children, c.daemon ∈ s.manager.refs ∧
    s.manager.pidAt c.daemon = some c.pid ∧ c.pid ≠ 0
  apart : ∀ r r' pid, pid ≠ 0 → s.manager.pidAt r = some pid → s.manager.pidAt r' = some pid →
    r = r'
  disjoint : ∀ c ∈ s.running, c ∉ s.ended
  marked : ∀ ref, s.manager.daemonRestart = some ref → ref ∈ s.manager.refs ∧
    (s.manager.moduleRestart = none → ∀ c ∈ s.children, c.daemon ≠ ref)

/-- While coprocd is there, it keeps track of its children. -/
def Watches (s : Supervision) : Prop := s.manager.fate = .running → Tracked s

section Tracking
variable {s s' : Supervision} {c : Child} {o : Restart} {act : SupervisionAct}

theorem mem_children : c ∈ s.children ↔ c ∈ s.running ∨ c ∈ s.ended := List.mem_append

/-- A daemon has one process at most. -/
theorem Tracked.eq_of_daemon {c' : Child} (h : Tracked s) (hc : c ∈ s.children)
    (hc' : c' ∈ s.children) (heq : c'.daemon = c.daemon) : c' = c := by
  have hpid := (h.entry c hc).2.1
  have hpid' := (h.entry c' hc').2.1
  rw [heq, hpid] at hpid'
  cases c
  cases c'
  cases heq
  cases hpid'
  rfl

/-- `find_daemon` finds the daemon of a child. -/
theorem Tracked.findDaemon (h : Tracked s) (hc : c ∈ s.children) :
    s.manager.findDaemon c.pid = some c.daemon := by
  obtain ⟨href, hpid, hpos⟩ := h.entry c hc
  exact findDaemon_some href hpid fun r hr => h.apart r c.daemon c.pid hpos hr hpid

/-- A module that is not marked as running stays so. -/
theorem pending_of_step {s s' : Manager} {act : ManagerAct}
    (h : ∀ m ∈ s.modules, m.status = .pending) (hs : s.step act = some s') :
    ∀ m ∈ s'.modules, m.status = .pending := by
  have hsame := sameStatuses_step hs
  rw [pending_iff] at h ⊢
  rw [hsame]
  exact h

theorem step_store {s s' : Manager} {ref : DaemonRef} {status : Status}
    (h : s.step (.store ref status) = some s') :
    s.fate = .running ∧ s' = s.setStatus ref status := by
  simp only [step] at h
  split at h
  · cases h
  · rename_i hrun
    exact ⟨by simpa using hrun, (Option.some.inj h).symm⟩

theorem step_sigchld {s s' : Manager} {pid : Nat} {wait : WaitResult}
    (h : s.step (.sigchld pid wait) = some s') :
    s.fate = .running ∧ ((s.handler = .daemonDied ∧ s' = s.daemonDied pid wait) ∨
      (s.handler = .justReap ∧ s' = s)) := by
  simp only [step] at h
  split at h
  · cases h
  · rename_i hrun
    refine ⟨by simpa using hrun, ?_⟩
    cases hhandler : s.handler with
    | daemonDied =>
      simp only [hhandler] at h
      exact .inl ⟨rfl, (Option.some.inj h).symm⟩
    | justReap =>
      simp only [hhandler] at h
      exact .inr ⟨rfl, (Option.some.inj h).symm⟩

theorem step_runloop {s s' : Manager} (h : s.step (.runloop o) = some s') :
    s.fate = .running ∧ s' = s.runloop o := by
  simp only [step] at h
  split at h
  · cases h
  · rename_i hrun
    exact ⟨by simpa using hrun, (Option.some.inj h).symm⟩

theorem tracked_store {ref : DaemonRef} {status : Status} (h : Tracked s) :
    Tracked { s with manager := s.manager.setStatus ref status } := by
  have hrefs : (s.manager.setStatus ref status).refs = s.manager.refs :=
    refs_of_sizes sizes_modifyDaemon
  have hsame : SameStatuses s.manager (s.manager.setStatus ref status) := sameStatuses_modifyDaemon
  refine ⟨?_, fun c hc => ?_, fun r r' pid hpos hr hr' => ?_, h.disjoint, fun r hr => ?_⟩
  · rw [pending_iff, hsame, ← pending_iff]
    exact h.pending
  · rw [hrefs, pidAt_setStatus]
    exact h.entry c hc
  · rw [pidAt_setStatus] at hr hr'
    exact h.apart r r' pid hpos hr hr'
  · rw [hrefs]
    exact h.marked r hr

theorem tracked_exit (h : Tracked s) (hc : c ∈ s.running) :
    Tracked { s with running := s.running.filter (· ≠ c), ended := c :: s.ended } := by
  have hsub : ∀ x ∈ s.running.filter (· ≠ c) ++ c :: s.ended, x ∈ s.children := by
    intro x hx
    rcases List.mem_append.mp hx with hx | hx
    · exact mem_children.mpr (.inl (List.mem_filter.mp hx).1)
    · rcases List.mem_cons.mp hx with rfl | hx
      · exact mem_children.mpr (.inl hc)
      · exact mem_children.mpr (.inr hx)
  refine ⟨h.pending, fun x hx => h.entry x (hsub x hx), h.apart, fun x hx hx' => ?_,
    fun ref href => ⟨(h.marked ref href).1, fun hm x hx => (h.marked ref href).2 hm x (hsub x hx)⟩⟩
  obtain ⟨hmem, hne⟩ := List.mem_filter.mp hx
  rcases List.mem_cons.mp hx' with rfl | hx'
  · simp at hne
  · exact h.disjoint x hmem hx'

theorem tracked_sigchld {manager : Manager} (h : Tracked s) (hc : c ∈ s.ended)
    (hs : s.manager.step (.sigchld c.pid .reaped) = some manager) :
    Tracked { s with manager := manager, ended := s.ended.filter (· ≠ c) } := by
  have hchild : c ∈ s.children := mem_children.mpr (.inr hc)
  -- The children that are left, and none of them is of the same daemon.
  have hsub : ∀ x ∈ s.running ++ s.ended.filter (· ≠ c), x ∈ s.children ∧ x.daemon ≠ c.daemon := by
    intro x hx
    have hx' : x ∈ s.children ∧ x ≠ c := by
      rcases List.mem_append.mp hx with hx | hx
      · refine ⟨mem_children.mpr (.inl hx), fun heq => ?_⟩
        exact h.disjoint x hx (heq ▸ hc)
      · obtain ⟨hmem, hne⟩ := List.mem_filter.mp hx
        exact ⟨mem_children.mpr (.inr hmem), by simpa using hne⟩
    exact ⟨hx'.1, fun heq => hx'.2 (h.eq_of_daemon hchild hx'.1 heq)⟩
  have hdisjoint : ∀ x ∈ s.running, x ∉ s.ended.filter (· ≠ c) :=
    fun x hx hx' => h.disjoint x hx (List.mem_filter.mp hx').1
  have hpending := pending_of_step h.pending hs
  obtain ⟨hrun, ⟨_, rfl⟩ | ⟨_, rfl⟩⟩ := step_sigchld hs
  · have he := daemonDied_effect h.pending hrun (h.findDaemon hchild)
    have hrefs := refs_of_sizes he.sizes
    have hback {r : DaemonRef} {pid : Nat} (hpos : pid ≠ 0)
        (hr : (s.manager.daemonDied c.pid .reaped).pidAt r = some pid) :
        s.manager.pidAt r = some pid := by
      rcases he.pids r with heq | ⟨_, hzero⟩
      · rwa [← heq]
      · rw [hzero] at hr
        exact absurd (Option.some.inj hr).symm hpos
    refine ⟨hpending, fun x hx => ?_, fun r r' pid hpos hr hr' =>
      h.apart r r' pid hpos (hback hpos hr) (hback hpos hr'), hdisjoint, fun ref href => ?_⟩
    · obtain ⟨hmem, hne⟩ := hsub x hx
      obtain ⟨hin, hpid, hpos⟩ := h.entry x hmem
      refine ⟨hrefs ▸ hin, ?_, hpos⟩
      rcases he.pids x.daemon with heq | ⟨heq, _⟩
      · exact heq.trans hpid
      · exact absurd heq hne
    · -- The daemon that died may be marked now, and it has no process.
      rcases he.marks with ⟨hdaemon, hmodule⟩ | hnew
      · obtain ⟨hin, hnone⟩ := h.marked ref (hdaemon ▸ href)
        exact ⟨hrefs ▸ hin, fun hm x hx => hnone (hmodule ▸ hm) x (hsub x hx).1⟩
      · have heq : c.daemon = ref := Option.some.inj (hnew.symm.trans href)
        subst heq
        exact ⟨hrefs ▸ (h.entry c hchild).1, fun _ x hx => (hsub x hx).2⟩
  · exact ⟨hpending, fun x hx => h.entry x (hsub x hx).1, h.apart, hdisjoint, fun ref href =>
      ⟨(h.marked ref href).1, fun hm x hx => (h.marked ref href).2 hm x (hsub x hx).1⟩⟩

/-- `runloop` starts daemons of the table. -/
theorem Tracked.started_mem (h : Tracked s)
    (he : RunloopEffect s.manager o (s.manager.runloop o)) :
    ∀ c ∈ s.manager.startedBy o, c.daemon ∈ s.manager.refs := by
  intro c hc
  rcases he.place c hc with ⟨k, _, _, href⟩ | ⟨_, hmark⟩
  · exact href
  · exact (h.marked c.daemon hmark).1

theorem tracked_runloop (h : Tracked s) (hfresh : FreshPids s o.launch) (hgone : ModuleGone s)
    (he : RunloopEffect s.manager o (s.manager.runloop o))
    (hpending : ∀ m ∈ (s.manager.runloop o).modules, m.status = .pending) :
    Tracked { manager := s.manager.runloop o
              running := s.running ++ s.manager.startedBy o
              ended := s.ended.filter fun c => c.pid ∉ s.manager.reapedBy o } := by
  have hrefs := refs_of_sizes he.sizes
  -- No daemon is started that has a process.
  have hfree : ∀ x ∈ s.children, ∀ c ∈ s.manager.startedBy o, c.daemon ≠ x.daemon := by
    intro x hx c hc heq
    rcases he.place c hc with ⟨k, hk, hmodule, _⟩ | ⟨hnone, hmark⟩
    · exact hgone k hk x hx (heq ▸ hmodule)
    · exact (h.marked c.daemon hmark).2 hnone x hx heq.symm
  have hin := h.started_mem he
  -- Where a pid in the table is from.
  have hback {r : DaemonRef} {pid : Nat} (hpos : pid ≠ 0)
      (hr : (s.manager.runloop o).pidAt r = some pid) :
      o.launch.spawn r = some pid ∨ s.manager.pidAt r = some pid := by
    by_cases hnew : ∃ c ∈ s.manager.startedBy o, c.daemon = r
    · obtain ⟨c, hc, rfl⟩ := hnew
      have hpid := he.started c hc (hin c hc)
      rw [hr] at hpid
      rw [Option.some.inj hpid]
      exact .inl (he.spawned c hc)
    · rcases he.kept r fun c hc heq => hnew ⟨c, hc, heq⟩ with heq | ⟨_, _, hzero⟩
      · exact .inr (heq ▸ hr)
      · rw [hzero] at hr
        exact absurd (Option.some.inj hr).symm hpos
  refine ⟨hpending, fun x hx => ?_, fun r r' pid hpos hr hr' => ?_, fun x hx hx' => ?_,
    fun ref href => by rw [he.daemonRestart] at href; cases href⟩
  · have hcases : x ∈ s.children ∨ x ∈ s.manager.startedBy o := by
      rcases List.mem_append.mp hx with hx | hx
      · rcases List.mem_append.mp hx with hx | hx
        · exact .inl (mem_children.mpr (.inl hx))
        · exact .inr hx
      · exact .inl (mem_children.mpr (.inr (List.mem_filter.mp hx).1))
    rcases hcases with hx | hx
    · obtain ⟨href, hpid, hpos⟩ := h.entry x hx
      refine ⟨hrefs ▸ href, ?_, hpos⟩
      rcases he.kept x.daemon (hfree x hx) with heq | ⟨hnone, hmark, _⟩
      · exact heq.trans hpid
      · exact absurd rfl ((h.marked x.daemon hmark).2 hnone x hx)
    · exact ⟨hrefs ▸ hin x hx, he.started x hx (hin x hx), hfresh.pos _ _ (he.spawned x hx)⟩
  · -- A new pid is not one that the table has had.
    rcases hback hpos hr with hr | hr <;> rcases hback hpos hr' with hr' | hr'
    · exact hfresh.apart r r' pid hr hr'
    · exact absurd hr' (hfresh.entries r pid hr r')
    · exact absurd hr (hfresh.entries r' pid hr' r)
    · exact h.apart r r' pid hpos hr hr'
  · have hended := (List.mem_filter.mp hx').1
    rcases List.mem_append.mp hx with hx | hx
    · exact h.disjoint x hx hended
    · exact hfresh.children _ _ (he.spawned x hx) x (mem_children.mpr (.inr hended)) rfl

/-- coprocd was still there before the step. -/
theorem fate_of_step (hs : supervisionStep s act = some s') (hrun : s'.manager.fate = .running) :
    s.manager.fate = .running := by
  cases act with
  | store ref status =>
    obtain ⟨manager, hm, _⟩ := Option.map_eq_some_iff.mp hs
    exact (step_store hm).1
  | exit c =>
    rw [supervisionStep] at hs
    split at hs
    · cases hs
      exact hrun
    · cases hs
  | sigchld c =>
    rw [supervisionStep] at hs
    split at hs
    · obtain ⟨manager, hm, _⟩ := Option.map_eq_some_iff.mp hs
      exact (step_sigchld hm).1
    · cases hs
  | runloop o =>
    obtain ⟨manager, hm, _⟩ := Option.map_eq_some_iff.mp hs
    exact (step_runloop hm).1

theorem tracked_step (h : Tracked s) (hok : Supervised s act) (hs : supervisionStep s act = some s')
    (hrun : s'.manager.fate = .running) : Tracked s' := by
  cases act with
  | store ref status =>
    obtain ⟨manager, hm, rfl⟩ := Option.map_eq_some_iff.mp hs
    obtain ⟨_, rfl⟩ := step_store hm
    exact tracked_store h
  | exit c =>
    rw [supervisionStep] at hs
    split at hs
    · rename_i hc
      cases hs
      exact tracked_exit h hc
    · cases hs
  | sigchld c =>
    rw [supervisionStep] at hs
    split at hs
    · rename_i hc
      obtain ⟨manager, hm, rfl⟩ := Option.map_eq_some_iff.mp hs
      exact tracked_sigchld h hc hm
    · cases hs
  | runloop o =>
    obtain ⟨manager, hm, rfl⟩ := Option.map_eq_some_iff.mp hs
    have hpending := pending_of_step h.pending hm
    obtain ⟨hbefore, rfl⟩ := step_runloop hm
    exact tracked_runloop h hok.1 hok.2 (runloop_effect h.pending hbefore rfl hrun) hpending

/-- coprocd has started what has a pid now. -/
theorem tracked_supervise {mypid : Nat} {launch : Launch} {manager : Manager}
    (h : FromBoot mypid launch manager) (hpids : LaunchPids mypid launch)
    (hpending : ∀ m ∈ manager.modules, m.status = .pending) : Tracked (supervise manager) where
  pending := hpending
  entry c hc := by
    have hlaunched : c ∈ manager.launched := by simpa [mem_children, supervise] using hc
    obtain ⟨ref, href, hc⟩ := List.mem_filterMap.mp hlaunched
    obtain ⟨pid, hpid, hc⟩ := Option.bind_eq_some_iff.mp hc
    split at hc
    · cases hc
    · rename_i hpos
      cases hc
      exact ⟨(List.mem_filter.mp href).1, hpid, hpos⟩
  apart r r' pid hpos hr hr' := by
    rcases h.pids r pid hr with hzero | ⟨rfl, rfl⟩ | hspawn
    · exact absurd hzero hpos
    · rcases h.pids r' pid hr' with hzero | ⟨rfl, _⟩ | hspawn'
      · exact absurd hzero hpos
      · rfl
      · exact absurd rfl (hpids.pos r' pid hspawn').2
    · rcases h.pids r' pid hr' with hzero | ⟨rfl, rfl⟩ | hspawn'
      · exact absurd hzero hpos
      · exact absurd rfl (hpids.pos r pid hspawn).2
      · exact hpids.apart r r' pid hspawn hspawn'
  disjoint _ _ hc := (List.not_mem_nil hc).elim
  marked ref href := by
    rw [show (supervise manager).manager.daemonRestart = none from h.daemonRestart] at href
    cases href

/-- coprocd sends no signal to a child. -/
theorem Tracked.signals (h : Tracked s) (hs : supervisionStep s act = some s') {x : Kill}
    (hx : x ∈ s'.manager.log.drop s.manager.log.length) (hc : c ∈ s.children) : c.pid ≠ x.pid := by
  have hsame (hlog : s'.manager.log = s.manager.log) : False := by
    rw [hlog, List.drop_length] at hx
    cases hx
  cases act with
  | store ref status =>
    obtain ⟨manager, hm, rfl⟩ := Option.map_eq_some_iff.mp hs
    obtain ⟨_, rfl⟩ := step_store hm
    exact (hsame rfl).elim
  | exit c =>
    rw [supervisionStep] at hs
    split at hs
    · cases hs
      exact (hsame rfl).elim
    · cases hs
  | sigchld c' =>
    rw [supervisionStep] at hs
    split at hs
    · rename_i hc'
      obtain ⟨manager, hm, rfl⟩ := Option.map_eq_some_iff.mp hs
      obtain ⟨hbefore, ⟨_, rfl⟩ | ⟨_, rfl⟩⟩ := step_sigchld hm
      · have hfind := h.findDaemon (mem_children.mpr (.inr hc'))
        exact (hsame (daemonDied_effect h.pending hbefore hfind).log).elim
      · exact (hsame rfl).elim
    · cases hs
  | runloop o =>
    obtain ⟨manager, hm, rfl⟩ := Option.map_eq_some_iff.mp hs
    obtain ⟨_, rfl⟩ := step_runloop hm
    -- The only signal is the one to the daemon that is marked, and its process is gone.
    rcases runloop_log h.pending with hlog | ⟨ref, pid, hnone, hmark, hpos, hpid, hlog⟩
    · exact (hsame hlog).elim
    · rw [show (s.manager.runloop o).log = _ from hlog, List.drop_left] at hx
      obtain rfl := List.mem_singleton.mp hx
      intro heq
      have hchild : s.manager.pidAt c.daemon = some pid :=
        (h.entry c hc).2.1.trans (congrArg some heq)
      have href : c.daemon = ref := h.apart c.daemon ref pid hpos hchild hpid
      exact (h.marked ref hmark).2 hnone c hc href

/-- A process whose daemon is started again has no entry any more. -/
theorem Tracked.lost (h : Tracked s) (hfresh : FreshPids s o.launch)
    (he : RunloopEffect s.manager o (s.manager.runloop o)) {c' : Child} (hc : c ∈ s.children)
    (hc' : c' ∈ s.manager.startedBy o) (heq : c'.daemon = c.daemon) :
    (s.manager.runloop o).findDaemon c.pid = none := by
  obtain ⟨href, hpid, hpos⟩ := h.entry c hc
  refine findDaemon_none fun r hr => ?_
  by_cases hnew : ∃ x ∈ s.manager.startedBy o, x.daemon = r
  · obtain ⟨x, hx, rfl⟩ := hnew
    have hstarted := he.started x hx (h.started_mem he x hx)
    rw [hr] at hstarted
    exact hfresh.children _ _ (he.spawned x hx) c hc (Option.some.inj hstarted)
  · rcases he.kept r fun x hx hxr => hnew ⟨x, hx, hxr⟩ with hkept | ⟨_, _, hzero⟩
    · have hsame : r = c.daemon := h.apart r c.daemon c.pid hpos (hkept ▸ hr) hpid
      exact hnew ⟨c', hc', hsame ▸ heq⟩
    · rw [hzero] at hr
      exact hpos (Option.some.inj hr).symm

end Tracking

/-! ### From the launch on -/

section Main
variable {modules : List UkernelModule} {mypid : Nat} {progname : String} {launch : Launch}
  {s₀ : Manager} {s : Supervision}

theorem tracked_reach (ht : ∀ m ∈ modules, Declared m)
    (hinit : (boot mypid modules).initMicrokernel progname launch = some s₀)
    (hpids : LaunchPids mypid launch) (h : Reach supervisionStep Supervised (supervise s₀) s)
    (hrun : s.manager.fate = .running) : Tracked s := by
  have hpending : ∀ m ∈ s₀.modules, m.status = .pending := pending_of_reach ht hinit .init
  have hinv : Watches s := by
    refine h.invariant ?_ ?_
    · exact fun _ => tracked_supervise (fromBoot_initMicrokernel ht hinit) hpids hpending
    · intro t act t' _ hinv hok hs hrun'
      exact tracked_step (hinv (fate_of_step hs hrun')) hok hs hrun'
  exact hinv hrun

/-- In a run from the launch on, each child has the entry of its daemon and is the one process of
it, each death is put down to the daemon that died, and no child gets a signal. A turn of `runloop`
that starts the daemon of a child again loses this child, and its death faults coprocd. -/
theorem children_tracked (ht : ∀ m ∈ modules, Declared m)
    (hinit : (boot mypid modules).initMicrokernel progname launch = some s₀)
    (hpids : LaunchPids mypid launch) (h : Reach supervisionStep Supervised (supervise s₀) s)
    (hrun : s.manager.fate = .running) :
    (∀ c ∈ s.children, s.manager.findDaemon c.pid = some c.daemon ∧
      ∀ c' ∈ s.children, c'.daemon = c.daemon → c' = c) ∧
    (∀ c s', supervisionStep s (.sigchld c) = some s' → s.manager.handler = .daemonDied →
      s'.manager.fate ≠ .faulted ∧
        (s'.manager.daemon? c.daemon).map UkernelDaemon.status = some .died) ∧
    (∀ act s', supervisionStep s act = some s' →
      ∀ x ∈ s'.manager.log.drop s.manager.log.length, ∀ c ∈ s.children, c.pid ≠ x.pid) ∧
    ∀ o s', FreshPids s o.launch → supervisionStep s (.runloop o) = some s' →
      s'.manager.fate = .running → ∀ c ∈ s.children,
        (∃ c' ∈ s.manager.startedBy o, c'.daemon = c.daemon) →
          s'.manager.findDaemon c.pid = none ∧
            (s'.manager.daemonDied c.pid .reaped).fate = .faulted := by
  have htracked := tracked_reach ht hinit hpids h hrun
  refine ⟨fun c hc => ⟨htracked.findDaemon hc, fun c' hc' heq =>
    htracked.eq_of_daemon hc hc' heq⟩, fun c s' hs hhandler => ?_,
    fun act s' hs x hx c hc => htracked.signals hs hx hc,
    fun o s' hfresh hs hrun' c hc hagain => ?_⟩
  · rw [supervisionStep] at hs
    split at hs
    · rename_i hc
      obtain ⟨manager, hm, rfl⟩ := Option.map_eq_some_iff.mp hs
      obtain ⟨_, ⟨_, rfl⟩ | ⟨hreap, _⟩⟩ := step_sigchld hm
      · have he := daemonDied_effect htracked.pending hrun
          (htracked.findDaemon (mem_children.mpr (.inr hc)))
        exact ⟨he.fate, he.status⟩
      · rw [hhandler] at hreap
        cases hreap
    · cases hs
  · obtain ⟨manager, hm, rfl⟩ := Option.map_eq_some_iff.mp hs
    obtain ⟨_, rfl⟩ := step_runloop hm
    obtain ⟨c', hc', heq⟩ := hagain
    have hnone := htracked.lost hfresh (runloop_effect htracked.pending hrun rfl hrun') hc hc' heq
    refine ⟨hnone, ?_⟩
    simp only [daemonDied, hnone]

end Main

/-! ### A module of two daemons -/

/-- New processes get the pids of a list, and come to run. -/
def launchOf (cs : List Child) : Launch :=
  ⟨fun ref => (cs.find? fun c => c.daemon = ref).map Child.pid, fun _ => .running⟩

theorem mem_of_spawn {cs : List Child} {ref : DaemonRef} {pid : Nat}
    (h : (launchOf cs).spawn ref = some pid) : ⟨ref, pid⟩ ∈ cs := by
  obtain ⟨c, hfind, rfl⟩ := Option.map_eq_some_iff.mp h
  have href : c.daemon = ref := by simpa using List.find?_some hfind
  subst href
  exact List.mem_of_find?_eq_some hfind

/-- The table holds none of these pids, and no child has one. -/
def checkFresh (s : Supervision) (cs : List Child) : Bool :=
  cs.all fun c => c.pid ≠ 0 && s.children.all (fun x => x.pid ≠ c.pid) &&
    s.manager.modules.all fun m => m.daemons.all fun d => d.pid ≠ c.pid

theorem freshPids_of_check {s : Supervision} {cs : List Child} (h : checkFresh s cs = true)
    (hapart : ∀ c ∈ cs, ∀ c' ∈ cs, c.pid = c'.pid → c.daemon = c'.daemon) :
    FreshPids s (launchOf cs) := by
  simp only [checkFresh, List.all_eq_true, Bool.and_eq_true, decide_eq_true_eq] at h
  refine ⟨fun ref pid hs => (h _ (mem_of_spawn hs)).1.1,
    fun ref pid hs => (h _ (mem_of_spawn hs)).1.2, fun ref pid hs r hr => ?_,
    fun ref ref' pid hs hs' => hapart _ (mem_of_spawn hs) _ (mem_of_spawn hs') rfl⟩
  obtain ⟨d, hd, hpid⟩ := Option.map_eq_some_iff.mp hr
  obtain ⟨m, hm, hmem⟩ := Option.bind_eq_some_iff.mp hd
  exact (h _ (mem_of_spawn hs)).2 m (List.mem_of_getElem? hm) d (List.mem_of_getElem? hmem) hpid

/-- A module that is restarted when its second daemon dies. -/
def netModule : UkernelModule where
  moduleName := "net"
  type := .peripheral
  ndaemons := 2
  status := .pending
  flags := 0
  init := ⟨true, true⟩
  fini := some ⟨true, true⟩
  daemons := [⟨"netd", 0, .dirtyRestart, 0, .pending⟩, ⟨"logd", 0, .cleanRestart, 0, .pending⟩] ++
    List.replicate 10 ⟨"", 0, .hcf, 0, .pending⟩
  length_eq := rfl
  ndaemons_le := Nat.le_add_right 2 10

/-- The pids of the first processes, and those of the next ones. -/
def firstPids : List Child :=
  [⟨⟨0, 1⟩, 2⟩, ⟨⟨0, 2⟩, 3⟩, ⟨⟨0, 3⟩, 4⟩, ⟨⟨0, 4⟩, 5⟩, ⟨⟨1, 0⟩, 6⟩, ⟨⟨1, 1⟩, 7⟩]

def nextPids : List Child := [⟨⟨1, 0⟩, 8⟩, ⟨⟨1, 1⟩, 9⟩]

def restartNet : Restart := ⟨launchOf nextPids, fun _ => .none, .esrch, false⟩

def logdDies : List SupervisionAct := [.exit ⟨⟨1, 1⟩, 7⟩, .sigchld ⟨⟨1, 1⟩, 7⟩]

/-- The launch, and the death of logd. -/
def afterLogd : Option Supervision :=
  ((boot 1 [coreModule, netModule]).initMicrokernel "coprocd" (launchOf firstPids)).bind fun s₀ =>
    runFrom supervisionStep (supervise s₀) logdDies

/-- `Supervised`, as a test, where `runloop` takes no turn. -/
def checkSupervised (_ : Supervision) : SupervisionAct → Bool
  | .runloop _ => false
  | _          => true

theorem supervised_of_check (s : Supervision) (act : SupervisionAct)
    (h : checkSupervised s act = true) : Supervised s act := by
  cases act with
  | runloop o => cases h
  | store | exit | sigchld => trivial

theorem netModule_declared : ∀ m ∈ [coreModule, netModule], Declared m := by
  intro m hm
  rcases List.mem_cons.mp hm with rfl | hm
  · exact coreModule_declared _ List.mem_cons_self
  · obtain rfl := List.mem_singleton.mp hm
    exact ⟨rfl, by decide⟩

/-- netd runs when logd has died. It has its entry, and the restart of the module loses it. -/
theorem children_tracked_logd :
    ∃ s s', afterLogd = some s ∧ s.manager.findDaemon 6 = some ⟨1, 0⟩ ∧
      supervisionStep s (.runloop restartNet) = some s' ∧ s'.manager.findDaemon 6 = none := by
  obtain ⟨s, hs⟩ : ∃ s, afterLogd = some s := Option.isSome_iff_exists.mp (by decide)
  have heval {τ : Type} (f : Supervision → τ) {b : τ} (hf : afterLogd.map f = some b) :
      f s = b := by
    rw [hs] at hf
    exact Option.some.inj hf
  obtain ⟨s₀, hinit, hacts⟩ := Option.bind_eq_some_iff.mp hs
  have hpids : LaunchPids 1 (launchOf firstPids) :=
    ⟨fun _ _ h => (by decide : ∀ c ∈ firstPids, c.pid ≠ 0 ∧ c.pid ≠ 1) _ (mem_of_spawn h),
      fun _ _ _ h h' => (by decide : ∀ c ∈ firstPids, ∀ c' ∈ firstPids, c.pid = c'.pid →
        c.daemon = c'.daemon) _ (mem_of_spawn h) _ (mem_of_spawn h') rfl⟩
  have hcheck : checkAll supervisionStep checkSupervised (supervise s₀) logdDies = true := by
    have hmap : ((boot 1 [coreModule, netModule]).initMicrokernel "coprocd"
        (launchOf firstPids)).map (fun s₀ => checkAll supervisionStep checkSupervised
          (supervise s₀) logdDies) = some true := by decide
    rw [hinit] at hmap
    exact Option.some.inj hmap
  have hreach : Reach supervisionStep Supervised (supervise s₀) s :=
    reach_of_checkAll supervised_of_check _ _ _ hcheck hacts
  have hrun : s.manager.fate = .running := heval (fun s => s.manager.fate) (by decide)
  obtain ⟨hentry, -, -, hlost⟩ := children_tracked netModule_declared hinit hpids hreach hrun
  have hnetd : (⟨⟨1, 0⟩, 6⟩ : Child) ∈ s.children := by
    rw [heval Supervision.children (b := firstPids.take 5) (by decide)]
    decide
  have hfresh : FreshPids s restartNet.launch :=
    freshPids_of_check (heval (fun s => checkFresh s nextPids) (by decide)) (by decide)
  obtain ⟨s', hs'⟩ : ∃ s', supervisionStep s (.runloop restartNet) = some s' :=
    Option.isSome_iff_exists.mp
      (heval (fun s => (supervisionStep s (.runloop restartNet)).isSome) (by decide))
  have hrun' : s'.manager.fate = .running := by
    have hmap : (supervisionStep s (.runloop restartNet)).map (fun s => s.manager.fate) =
        some .running := heval (fun s => (supervisionStep s (.runloop restartNet)).map
          fun s => s.manager.fate) (by decide)
    rw [hs'] at hmap
    exact Option.some.inj hmap
  have hagain : ∃ c' ∈ s.manager.startedBy restartNet, c'.daemon = ⟨1, 0⟩ := by
    rw [heval (fun s => s.manager.startedBy restartNet) (b := nextPids) (by decide)]
    exact ⟨⟨⟨1, 0⟩, 8⟩, List.mem_cons_self, rfl⟩
  exact ⟨s, s', hs, (hentry _ hnetd).1, hs',
    (hlost restartNet s' hfresh hs' hrun' _ hnetd hagain).1⟩

end Comsg.Proofs.Coprocd
