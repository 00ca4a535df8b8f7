import Comsg.Coprocd.Children
import Comsg.Proofs.Coprocd.Halt
import Comsg.Proofs.Coprocd.InitModule

/-!
# `Comsg.Proofs.Coprocd.Restart`: what coprocd does to the pids of its table

Each entry of the table has the pid of a process, or 0, or a pid that was. `daemon_died` finds the
first entry with a pid (`findDaemon_eq_find`).

`runloop_effect` and `daemonDied_effect` say what a turn of `runloop` and a death do to the pids,
and `fromBoot_initMicrokernel` where they come from in the launch. The first two need that no module
is marked as running, so that `kill_module` does nothing.
-/

set_option autoImplicit false

namespace Comsg.Proofs.Coprocd

open Comsg.Lib
open Comsg.Coprocd
open Comsg.Coprocd.Manager

/-! ### The pids of the table -/

section Pids
variable {s s' : Manager} {ref r : DaemonRef} {pid : Nat}

theorem pidAt_setPid :
    (s.setPid ref pid).pidAt r = (s.pidAt r).map fun p => if r = ref then pid else p := by
  rw [pidAt, setPid, daemon?_modifyDaemon, pidAt, Option.map_map, Option.map_map]
  refine congrArg (Option.map · _) (funext fun d => ?_)
  by_cases hr : r = ref <;> simp [hr]

@[simp] theorem pidAt_setStatus (status : Status) :
    (s.setStatus ref status).pidAt r = s.pidAt r := by
  rw [pidAt, setStatus, daemon?_modifyDaemon, pidAt, Option.map_map]
  refine congrArg (Option.map · _) (funext fun d => ?_)
  by_cases hr : r = ref <;> simp [hr]

theorem pidAt_setPid_self (h : (s.pidAt ref).isSome) : (s.setPid ref pid).pidAt ref = some pid := by
  obtain ⟨p, hp⟩ := Option.isSome_iff_exists.mp h
  rw [pidAt_setPid, hp]
  simp

theorem pidAt_setPid_ne (h : r ≠ ref) : (s.setPid ref pid).pidAt r = s.pidAt r := by
  simp [pidAt_setPid, h]

theorem sizes_modifyDaemon {f : UkernelDaemon → UkernelDaemon} :
    (s.modifyDaemon ref f).sizes = s.sizes := by
  refine List.ext_getElem? fun j => ?_
  simp only [sizes, modifyDaemon, List.getElem?_map, List.getElem?_modify]
  cases s.modules[j]? with
  | none => rfl
  | some m =>
    show some (if ref.module = j then m.modifyDaemon ref.daemon f else m).ndaemons
      = some m.ndaemons
    split <;> rfl

theorem refs_of_sizes (h : s'.sizes = s.sizes) : s'.refs = s.refs := by
  have hlen : s'.modules.length = s.modules.length := by
    simpa [sizes] using congrArg List.length h
  have hget : ∀ k : Nat, s'.modules[k]?.map UkernelModule.ndaemons
      = s.modules[k]?.map UkernelModule.ndaemons := by
    intro k
    simpa [sizes] using congrArg (fun l : List Nat => l[k]?) h
  simp only [refs, hlen, hget]

theorem mem_refs : ref ∈ s.refs ↔
    ∃ m, s.modules[ref.module]? = some m ∧ ref.daemon < m.ndaemons := by
  obtain ⟨k, i⟩ := ref
  simp only [refs, List.mem_flatMap, List.mem_range, List.mem_map, DaemonRef.mk.injEq]
  constructor
  · rintro ⟨j, hj, i', hi, rfl, rfl⟩
    refine ⟨s.modules[j], List.getElem?_eq_getElem hj, ?_⟩
    simpa [List.getElem?_eq_getElem hj] using hi
  · rintro ⟨m, hm, hi⟩
    exact ⟨k, (List.getElem?_eq_some_iff.mp hm).1, i, by simpa [hm] using hi, rfl, rfl⟩

/-- A module has room for all of its daemons. -/
theorem isSome_pidAt (h : ref ∈ s.refs) : (s.pidAt ref).isSome := by
  obtain ⟨m, hm, hi⟩ := mem_refs.mp h
  have hlt : ref.daemon < m.daemons.length := by
    rw [m.length_eq]
    exact Nat.lt_of_lt_of_le hi m.ndaemons_le
  simp [pidAt, daemon?, hm, List.getElem?_eq_getElem hlt]

/-- `find_daemon` takes the first entry with the pid. -/
theorem findDaemon_eq_find : s.findDaemon pid = s.refs.find? fun r => s.pidAt r = some pid := by
  have hrow (k : Nat) (is : List Nat) :
      (is.findSome? fun i => if s.pidAt ⟨k, i⟩ = some pid then some (⟨k, i⟩ : DaemonRef) else none)
        = (is.map fun i => (⟨k, i⟩ : DaemonRef)).find? fun r => s.pidAt r = some pid := by
    induction is with
    | nil => rfl
    | cons i is ih =>
      rw [List.findSome?_cons, List.map_cons, List.find?_cons, ← ih]
      by_cases hp : s.pidAt ⟨k, i⟩ = some pid <;> simp [hp]
  rw [refs, List.find?_flatMap]
  exact congrArg (List.findSome? · _) (funext fun k => hrow k _)

theorem findDaemon_mem (h : s.findDaemon pid = some ref) :
    ref ∈ s.refs ∧ s.pidAt ref = some pid := by
  rw [findDaemon_eq_find] at h
  exact ⟨List.mem_of_find?_eq_some h, by simpa using List.find?_some h⟩

theorem findDaemon_none (h : ∀ r, s.pidAt r ≠ some pid) : s.findDaemon pid = none := by
  rw [findDaemon_eq_find, List.find?_eq_none]
  intro r _
  simpa using h r

theorem findDaemon_some (href : ref ∈ s.refs) (hpid : s.pidAt ref = some pid)
    (huniq : ∀ r, s.pidAt r = some pid → r = ref) : s.findDaemon pid = some ref := by
  cases hfind : s.findDaemon pid with
  | none =>
    rw [findDaemon_eq_find, List.find?_eq_none] at hfind
    exact absurd (by simpa using hpid) (hfind ref href)
  | some r => rw [huniq r (findDaemon_mem hfind).2]

end Pids

/-! ### New processes -/

/-- The processes `cs` have been started, and nothing else has happened to the pids. -/
structure Starts (cs : List Child) (s s' : Manager) : Prop where
  started : ∀ c ∈ cs, c.daemon ∈ s.refs → s'.pidAt c.daemon = some c.pid
  kept : ∀ r, (∀ c ∈ cs, c.daemon ≠ r) → s'.pidAt r = s.pidAt r
  sizes : s'.sizes = s.sizes
  log : s'.log = s.log
  daemonRestart : s'.daemonRestart = s.daemonRestart
  moduleRestart : s'.moduleRestart = s.moduleRestart

section Starting
variable {s s' s'' : Manager} {cs cs' : List Child} {k : Nat} {o : Launch} {ref : DaemonRef}

theorem Starts.refl (s : Manager) : Starts [] s s :=
  ⟨fun _ h => (List.not_mem_nil h).elim, fun _ _ => rfl, rfl, rfl, rfl, rfl⟩

/-- A daemon that is started twice gets the same pid. -/
theorem Starts.append (h : Starts cs s s') (h' : Starts cs' s' s'')
    (hsame : ∀ c ∈ cs, ∀ c' ∈ cs', c.daemon = c'.daemon → c.pid = c'.pid) :
    Starts (cs ++ cs') s s'' where
  started c hc href := by
    rcases List.mem_append.mp hc with hc | hc
    · by_cases hagain : ∃ c' ∈ cs', c'.daemon = c.daemon
      · obtain ⟨c', hc', heq⟩ := hagain
        rw [hsame c hc c' hc' heq.symm, ← heq]
        exact h'.started c' hc' (by rwa [refs_of_sizes h.sizes, heq])
      · rw [h'.kept c.daemon fun c' hc' heq => hagain ⟨c', hc', heq⟩]
        exact h.started c hc href
    · exact h'.started c hc (by rwa [refs_of_sizes h.sizes])
  kept r hr := by
    rw [h'.kept r fun c hc => hr c (List.mem_append_right _ hc)]
    exact h.kept r fun c hc => hr c (List.mem_append_left _ hc)
  sizes := h'.sizes.trans h.sizes
  log := h'.log.trans h.log
  daemonRestart := h'.daemonRestart.trans h.daemonRestart
  moduleRestart := h'.moduleRestart.trans h.moduleRestart

theorem starts_setStatus (status : Status) : Starts [] s (s.setStatus ref status) :=
  ⟨fun _ h => (List.not_mem_nil h).elim, fun _ _ => pidAt_setStatus status, sizes_modifyDaemon,
    rfl, rfl, rfl⟩

theorem starts_setPid (pid : Nat) : Starts [⟨ref, pid⟩] s (s.setPid ref pid) where
  started c hc href := by
    obtain rfl := List.mem_singleton.mp hc
    exact pidAt_setPid_self (isSome_pidAt href)
  kept r hr := pidAt_setPid_ne fun heq => hr _ List.mem_cons_self heq.symm
  sizes := sizes_modifyDaemon
  log := rfl
  daemonRestart := rfl
  moduleRestart := rfl

theorem starts_replay (call : ModuleCall) :
    Starts (call.started k o).toList s (replay k o s call) := by
  cases call with
  | wait i => exact starts_setStatus _
  | start i =>
    have hstatus : Starts [] s (s.setStatus ⟨k, i⟩ .starting) := starts_setStatus _
    simp only [ModuleCall.started, replay, initDaemon]
    cases o.spawn ⟨k, i⟩ with
    | none => exact hstatus
    | some pid =>
      exact hstatus.append (starts_setPid pid) fun _ h => (List.not_mem_nil h).elim

theorem spawn_of_started {calls : List ModuleCall} :
    ∀ c ∈ calls.filterMap (ModuleCall.started k o), o.spawn c.daemon = some c.pid := by
  intro c hc
  obtain ⟨call, _, hcall⟩ := List.mem_filterMap.mp hc
  cases call with
  | wait i => cases hcall
  | start i =>
    obtain ⟨pid, hpid, rfl⟩ := Option.map_eq_some_iff.mp hcall
    exact hpid

theorem starts_foldl_replay (calls : List ModuleCall) (s : Manager) :
    Starts (calls.filterMap (ModuleCall.started k o)) s (calls.foldl (replay k o) s) := by
  induction calls generalizing s with
  | nil => exact Starts.refl s
  | cons call calls ih =>
    have hsplit : (call :: calls).filterMap (ModuleCall.started k o)
        = (call.started k o).toList ++ calls.filterMap (ModuleCall.started k o) := by
      rw [List.filterMap_cons]
      cases call.started k o <;> rfl
    rw [hsplit]
    -- Both pids are what `spawn` gives for the daemon.
    refine (starts_replay call).append (ih _) fun c hc c' hc' heq => ?_
    have hmem : c ∈ (call :: calls).filterMap (ModuleCall.started k o) := by
      rw [hsplit]
      exact List.mem_append_left _ hc
    have hpid : o.spawn c.daemon = some c.pid := spawn_of_started c hmem
    have hpid' := spawn_of_started c' hc'
    rw [heq, hpid'] at hpid
    exact (Option.some.inj hpid).symm

/-- `init_module` starts daemons of its own module. -/
theorem start_bounds {fs : List Nat} {i j : Nat} {expect : Bool}
    (h : .start j ∈ (initCalls k o i expect fs).1) : i ≤ j ∧ j < i + fs.length := by
  induction fs generalizing i expect with
  | nil => cases h
  | cons flags fs ih =>
    have hrest {e : Bool} (h : .start j ∈ (initCalls k o (i + 1) e fs).1) :
        i ≤ j ∧ j < i + (flags :: fs).length := by
      have hb := ih h
      rw [List.length_cons]
      omega
    have hself : i ≤ i ∧ i < i + (flags :: fs).length := by
      rw [List.length_cons]
      omega
    rw [initCalls] at h
    dsimp only at h
    split at h
    · cases h
    · split at h
      · exact hrest h
      · split at h
        · obtain heq := List.mem_singleton.mp h
          cases heq
          exact hself
        · split at h
          · split at h <;> simp only [List.mem_cons, ModuleCall.start.injEq, reduceCtorEq, false_or,
              List.not_mem_nil, or_false] at h
            · rcases h with rfl | h
              · exact hself
              · exact hrest h
            · rcases h with rfl | h
              · exact hself
              · exact hrest h
            · exact h ▸ hself
            · exact h ▸ hself
          · rcases List.mem_cons.mp h with heq | h
            · cases heq
              exact hself
            · exact hrest h

end Starting

/-! ### A turn of `runloop` -/

/-- What a turn of `runloop` does, if coprocd is still there. -/
structure RunloopEffect (s : Manager) (o : Restart) (s' : Manager) : Prop where
  spawned : ∀ c ∈ s.startedBy o, o.launch.spawn c.daemon = some c.pid
  place : ∀ c ∈ s.startedBy o,
    (∃ k, s.moduleRestart = some k ∧ c.daemon.module = k ∧ c.daemon ∈ s.refs) ∨
    (s.moduleRestart = none ∧ s.daemonRestart = some c.daemon)
  started : ∀ c ∈ s.startedBy o, c.daemon ∈ s.refs → s'.pidAt c.daemon = some c.pid
  kept : ∀ r, (∀ c ∈ s.startedBy o, c.daemon ≠ r) → s'.pidAt r = s.pidAt r ∨
    (s.moduleRestart = none ∧ s.daemonRestart = some r ∧ s'.pidAt r = some 0)
  sizes : s'.sizes = s.sizes
  daemonRestart : s'.daemonRestart = none
  moduleRestart : s'.moduleRestart = none

section Runloop
variable {s s' : Manager} {k : Nat} {o : Restart} {ref : DaemonRef} {m : UkernelModule}

/-- Nothing is killed, and nothing is waited for. -/
theorem killAndReapModule_pending {reason : Option DaemonRef} {wait : DaemonRef → WaitResult}
    (hm : s.modules[k]? = some m) (hpending : m.status = .pending) :
    s.killAndReapModule k reason wait = s := by
  have hnone (n : Nat) : reaped k n 0 = [] := by
    unfold reaped
    split
    next h => rw [← h]; rfl
    next h =>
      split
      next h' => rw [← h']; rfl
      next => rfl
  simp only [killAndReapModule, killModule_pending hm hpending, hnone, List.foldl_nil]

theorem restartModule_starts (hpending : ∀ m ∈ s.modules, m.status = .pending)
    (hrun : s.fate = .running) (h : (s.restartModule k ref o).fate = .running) :
    Starts (s.moduleStarts k ref o) s (s.restartModule k ref o) := by
  unfold restartModule at h ⊢
  unfold moduleStarts
  cases hm : s.modules[k]? with
  | none => simp [hm] at h
  | some m =>
    simp only [hm, Option.bind_some] at h ⊢
    have hreap : s.killAndReapModule k (some ref) o.wait = s :=
      killAndReapModule_pending hm (hpending m (List.mem_of_getElem? hm))
    cases hfini : m.fini with
    | none => simp [hfini] at h
    | some fini =>
      cases hd : s.daemon? ref with
      | none => simp [hfini, hd] at h
      | some d =>
        simp only [hfini, hd, Option.map_some, Option.getD_some, hreap, hrun, ne_eq,
          not_true_eq_false, or_false, if_false] at h ⊢
        split at h
        · cases h
        · rename_i hasserts
          rw [if_neg hasserts, if_neg hasserts]
          rw [initModule_eq_replay hm] at h ⊢
          generalize hcalls : initCalls k o.launch 0 false
            ((m.daemons.take m.ndaemons).map UkernelDaemon.flags) = x at h ⊢
          obtain ⟨calls, e⟩ := x
          have hstarts := starts_foldl_replay (k := k) (o := o.launch) calls s
          -- coprocd is not there any more when `init_module` does not return.
          cases e with
          | rejected i => cases h
          | waiting => cases h
          | failed | completed =>
            simp only [ModuleEnd.result] at h ⊢
            split at h
            · rename_i hcomplete
              rw [if_pos hcomplete]
              exact hstarts
            · cases h

theorem moduleStarts_mem {c : Child} (h : c ∈ s.moduleStarts k ref o) :
    o.launch.spawn c.daemon = some c.pid ∧ c.daemon.module = k ∧ c.daemon ∈ s.refs := by
  unfold moduleStarts at h
  split at h
  · rename_i m d hm hd
    split at h
    · cases h
    · refine ⟨spawn_of_started c h, ?_⟩
      obtain ⟨call, hmem, hcall⟩ := List.mem_filterMap.mp h
      cases call with
      | wait i => cases hcall
      | start i =>
        obtain ⟨pid, _, rfl⟩ := Option.map_eq_some_iff.mp hcall
        have hlt := (start_bounds hmem).2
        rw [List.length_map, List.length_take, m.length_eq, Nat.min_eq_left m.ndaemons_le] at hlt
        exact ⟨rfl, mem_refs.mpr ⟨m, hm, by simpa using hlt⟩⟩
  · cases h

theorem daemonStarts_mem {c : Child} (h : c ∈ s.daemonStarts ref o) :
    c.daemon = ref ∧ o.launch.spawn c.daemon = some c.pid := by
  unfold daemonStarts at h
  split at h
  · cases h
  · rename_i d _
    dsimp only at h
    generalize (if d.pid ≠ 0 then s.killAndReapDaemon ref d.pid o else s) = s₁ at h
    split at h
    · cases h
    · obtain ⟨pid, hpid, rfl⟩ := Option.map_eq_some_iff.mp (Option.mem_toList.mp h)
      exact ⟨rfl, hpid⟩

/-- The pid of the daemon may be cleared, after a signal to it. -/
structure Cleared (ref : DaemonRef) (s s' : Manager) : Prop where
  pids : ∀ r, s'.pidAt r = s.pidAt r ∨ (r = ref ∧ s'.pidAt r = some 0)
  sizes : s'.sizes = s.sizes
  moduleRestart : s'.moduleRestart = s.moduleRestart
  log : s'.log = s.log ∨
    ∃ pid, pid ≠ 0 ∧ s.pidAt ref = some pid ∧ s'.log = s.log ++ [⟨ref, pid⟩]

theorem cleared_killAndReapDaemon {pid : Nat} (hpid : s.pidAt ref = some pid) (hpos : pid ≠ 0) :
    Cleared ref s (s.killAndReapDaemon ref pid o) := by
  have hlog : s.log ++ [⟨ref, pid⟩] = s.log ∨ ∃ p, p ≠ 0 ∧ s.pidAt ref = some p ∧
      s.log ++ [⟨ref, pid⟩] = s.log ++ [⟨ref, p⟩] := .inr ⟨pid, hpos, hpid, rfl⟩
  have hkill : Cleared ref s (s.kill ref pid) := ⟨fun _ => .inl rfl, rfl, rfl, hlog⟩
  have hexit : Cleared ref s { s.kill ref pid with fate := .exited } :=
    ⟨fun _ => .inl rfl, rfl, rfl, hlog⟩
  unfold killAndReapDaemon
  dsimp only
  split
  · exact hkill
  · cases o.killed with
    | einval | eperm => exact hexit
    | esrch => exact hkill
    | ok =>
      cases o.wait ref with
      | none | einval | failed => exact hexit
      | reaped =>
        refine ⟨fun r => ?_, sizes_modifyDaemon.trans sizes_modifyDaemon, rfl, hlog⟩
        by_cases hr : r = ref
        · subst hr
          have hsome : ((s.kill r pid).pidAt r).isSome := by
            show (s.pidAt r).isSome
            rw [hpid, Option.isSome_some]
          exact .inr ⟨rfl, by rw [pidAt_setStatus, pidAt_setPid_self hsome]⟩
        · exact .inl (by rw [pidAt_setStatus, pidAt_setPid_ne hr]; rfl)

/-- What `restart_daemon` does before it starts the daemon. -/
theorem cleared_first {pid : Nat} (hpid : s.pidAt ref = some pid) :
    Cleared ref s (if pid ≠ 0 then s.killAndReapDaemon ref pid o else s) := by
  split
  · rename_i hpos
    exact cleared_killAndReapDaemon hpid hpos
  · exact ⟨fun _ => .inl rfl, rfl, rfl, .inl rfl⟩

/-- `restart_daemon` clears the pid, and starts the daemon again. -/
theorem restartDaemon_cases (h : (s.restartDaemon ref o).fate = .running) :
    ∃ s₁, Cleared ref s s₁ ∧ Starts (s.daemonStarts ref o) s₁ (s.restartDaemon ref o) := by
  unfold restartDaemon at h ⊢
  unfold daemonStarts
  cases hd : s.daemon? ref with
  | none => simp [hd] at h
  | some d =>
    simp only [hd] at h ⊢
    split at h
    · cases h
    · rename_i hact
      have hpid : s.pidAt ref = some d.pid := by rw [pidAt, hd, Option.map_some]
      have hcleared := cleared_first (o := o) hpid
      generalize (if d.pid ≠ 0 then s.killAndReapDaemon ref d.pid o else s) = s₁ at h hcleared ⊢
      refine ⟨s₁, hcleared, ?_⟩
      rw [if_neg hact]
      by_cases hfate : s₁.fate = .running
      · simp only [hfate, ne_eq, not_true_eq_false, if_false, false_or, hact] at h ⊢
        -- `restart_daemon` returns before it starts anything.
        by_cases herror : o.error = true
        · simp only [herror, if_true]
          exact Starts.refl s₁
        · simp only [herror, Bool.false_eq_true, if_false]
          have hstatus : Starts [] s₁ (s₁.setStatus ref .starting) := starts_setStatus _
          cases o.launch.spawn ref with
          | none => exact hstatus
          | some pid =>
            exact hstatus.append (starts_setPid pid) fun _ h => (List.not_mem_nil h).elim
      · simp [hfate] at h

theorem runloop_effect (hpending : ∀ m ∈ s.modules, m.status = .pending)
    (hrun : s.fate = .running) (hs : s.runloop o = s') (h : s'.fate = .running) :
    RunloopEffect s o s' := by
  subst hs
  unfold runloop at h ⊢
  cases hm : s.moduleRestart with
  | some k =>
    cases hd : s.daemonRestart with
    | none => simp [hm, hd] at h
    | some ref =>
      simp only [hm, hd] at h ⊢
      have hstarts := restartModule_starts hpending hrun h
      have hby : s.startedBy o = s.moduleStarts k ref o := by rw [startedBy, hm, hd]
      exact {
        spawned := fun c hc => (moduleStarts_mem (hby ▸ hc)).1
        place := fun c hc => .inl ⟨k, hm, (moduleStarts_mem (hby ▸ hc)).2⟩
        started := fun c hc href => hstarts.started c (hby ▸ hc) href
        kept := fun r hr => .inl (hstarts.kept r (hby ▸ hr))
        sizes := hstarts.sizes
        daemonRestart := rfl
        moduleRestart := rfl }
  | none =>
    cases hd : s.daemonRestart with
    | none =>
      have hby : s.startedBy o = [] := by rw [startedBy, hm, hd]
      simp only [hm, hd] at h ⊢
      exact {
        spawned := fun c hc => by rw [hby] at hc; cases hc
        place := fun c hc => by rw [hby] at hc; cases hc
        started := fun c hc => by rw [hby] at hc; cases hc
        kept := fun r _ => .inl rfl
        sizes := rfl
        daemonRestart := hd
        moduleRestart := hm }
    | some ref =>
      simp only [hm, hd] at h ⊢
      obtain ⟨s₁, hcleared, hstarts⟩ := restartDaemon_cases h
      have hby : s.startedBy o = s.daemonStarts ref o := by rw [startedBy, hm, hd]
      exact {
        spawned := fun c hc => (daemonStarts_mem (hby ▸ hc)).2
        place := fun c hc => .inr ⟨hm, (daemonStarts_mem (hby ▸ hc)).1 ▸ hd⟩
        started := fun c hc href =>
          hstarts.started c (hby ▸ hc) (by rwa [refs_of_sizes hcleared.sizes])
        kept := fun r hr => by
          have hkept := hstarts.kept r (hby ▸ hr)
          rcases hcleared.pids r with heq | ⟨rfl, hzero⟩
          · exact .inl (hkept.trans heq)
          · exact .inr ⟨hm, hd, hkept.trans hzero⟩
        sizes := hstarts.sizes.trans hcleared.sizes
        daemonRestart := rfl
        moduleRestart := (hstarts.moduleRestart.trans hcleared.moduleRestart).trans hm }

theorem restartModule_log (hpending : ∀ m ∈ s.modules, m.status = .pending) :
    (s.restartModule k ref o).log = s.log := by
  unfold restartModule
  split
  · rename_i fini d hfini hd
    obtain ⟨m, hm, _⟩ := Option.bind_eq_some_iff.mp hfini
    rw [killAndReapModule_pending hm (hpending m (List.mem_of_getElem? hm))]
    split
    · rfl
    · dsimp only
      split
      · rfl
      · rw [initModule_eq_replay hm]
        have hlog := (starts_foldl_replay (k := k) (o := o.launch) (initCalls k o.launch 0 false
          ((m.daemons.take m.ndaemons).map UkernelDaemon.flags)).1 s).log
        cases (initCalls k o.launch 0 false
          ((m.daemons.take m.ndaemons).map UkernelDaemon.flags)).2 with
        | rejected i | waiting => rfl
        | failed | completed =>
          simp only [ModuleEnd.result]
          split <;> exact hlog
  · rfl

/-- A signal is sent to the daemon that is to be restarted, and to no other process. -/
theorem runloop_log (hpending : ∀ m ∈ s.modules, m.status = .pending) :
    (s.runloop o).log = s.log ∨ ∃ ref pid, s.moduleRestart = none ∧ s.daemonRestart = some ref ∧
      pid ≠ 0 ∧ s.pidAt ref = some pid ∧ (s.runloop o).log = s.log ++ [⟨ref, pid⟩] := by
  unfold runloop
  cases hm : s.moduleRestart with
  | some k =>
    cases s.daemonRestart with
    | none => exact .inl rfl
    | some ref => exact .inl (restartModule_log hpending)
  | none =>
    cases hd : s.daemonRestart with
    | none => exact .inl rfl
    | some ref =>
      show (s.restartDaemon ref o).log = s.log ∨ _
      have hcases : (s.restartDaemon ref o).log = s.log ∨
          ∃ pid, pid ≠ 0 ∧ s.pidAt ref = some pid ∧
            (s.restartDaemon ref o).log = s.log ++ [⟨ref, pid⟩] := by
        unfold restartDaemon
        cases hdaemon : s.daemon? ref with
        | none => exact .inl rfl
        | some d =>
          have hpid : s.pidAt ref = some d.pid := by rw [pidAt, hdaemon, Option.map_some]
          have hlog := (cleared_first (o := o) hpid).log
          dsimp only at hlog ⊢
          generalize (if d.pid ≠ 0 then s.killAndReapDaemon ref d.pid o else s) = s₁ at hlog ⊢
          split
          · exact .inl rfl
          · split
            · exact hlog
            · split
              · exact hlog
              · cases o.launch.spawn ref <;> exact hlog
      rcases hcases with heq | ⟨pid, hpos, hpid, heq⟩
      · exact .inl heq
      · exact .inr ⟨ref, pid, rfl, rfl, hpos, hpid, heq⟩

end Runloop

/-! ### A death -/

/-- What `daemon_died` does about the daemon `ref`. -/
structure DeathEffect (s : Manager) (ref : DaemonRef) (s' : Manager) : Prop where
  pids : ∀ r, s'.pidAt r = s.pidAt r ∨ (r = ref ∧ s'.pidAt r = some 0)
  sizes : s'.sizes = s.sizes
  log : s'.log = s.log
  status : (s'.daemon? ref).map UkernelDaemon.status = some .died
  fate : s'.fate ≠ .faulted
  marks : (s'.daemonRestart = s.daemonRestart ∧ s'.moduleRestart = s.moduleRestart) ∨
    s'.daemonRestart = some ref

section Death
variable {s s' : Manager} {pid : Nat} {ref : DaemonRef}

theorem status_setStatus (h : (s.pidAt ref).isSome) (status : Status) :
    ((s.setStatus ref status).daemon? ref).map UkernelDaemon.status = some status := by
  rw [pidAt, Option.isSome_map] at h
  obtain ⟨d, hd⟩ := Option.isSome_iff_exists.mp h
  simp [setStatus, daemon?_modifyDaemon, hd]

theorem status_setPid : ((s.setPid ref pid).daemon? ref).map UkernelDaemon.status
    = (s.daemon? ref).map UkernelDaemon.status := by
  rw [setPid, daemon?_modifyDaemon, Option.map_map]
  exact congrArg (Option.map · _) (funext fun d => by simp)

theorem haltAndCatchFire_pending (h : ∀ m ∈ s.modules, m.status = .pending)
    (hpos : 0 < s.modules.length) :
    s.haltAndCatchFire ref = { s with handler := .justReap } := by
  unfold haltAndCatchFire
  dsimp only
  refine foldl_killNext_pending (s := { s with handler := .justReap }) h fun k hk => ?_
  show k < s.modules.length
  rcases List.mem_append.mp hk with hk | hk
  · have hlt := (List.mem_range'_1.mp hk).2
    have hge := (List.mem_range'_1.mp hk).1
    omega
  · rw [List.mem_singleton.mp hk]
    exact hpos

theorem daemonDied_effect (hpending : ∀ m ∈ s.modules, m.status = .pending)
    (hrun : s.fate = .running) (hfind : s.findDaemon pid = some ref) :
    DeathEffect s ref (s.daemonDied pid .reaped) := by
  obtain ⟨href, hpid⟩ := findDaemon_mem hfind
  obtain ⟨m, hm, _⟩ := mem_refs.mp href
  have hsome := isSome_pidAt href
  obtain ⟨d, hd, _⟩ := Option.map_eq_some_iff.mp hpid
  have hsame : SameStatuses s (s.setStatus ref .died) := sameStatuses_modifyDaemon
  have hpending' : ∀ m ∈ (s.setStatus ref .died).modules, m.status = .pending := by
    rw [pending_iff, hsame, ← pending_iff]
    exact hpending
  have hlen : (s.setStatus ref .died).modules.length = s.modules.length := by
    simp [setStatus, modifyDaemon]
  have hlt := (List.getElem?_eq_some_iff.mp hm).1
  have hdied : DeathEffect s ref (s.setStatus ref .died) :=
    ⟨fun _ => .inl (pidAt_setStatus _), sizes_modifyDaemon, rfl, status_setStatus hsome _,
      (fun heq => by cases hrun.symm.trans heq), .inl ⟨rfl, rfl⟩⟩
  simp only [daemonDied, hfind, hm, hd]
  split
  · rw [haltAndCatchFire_pending hpending' (by omega)]
    exact ⟨hdied.pids, hdied.sizes, hdied.log, hdied.status, hdied.fate, hdied.marks⟩
  · cases d.failAct with
    | hcf =>
      exact ⟨hdied.pids, hdied.sizes, hdied.log, hdied.status, (fun h => by cases h),
        hdied.marks⟩
    | kill =>
      -- The module is not marked as running.
      obtain ⟨m', hm'⟩ : ∃ m', (s.setStatus ref .died).modules[ref.module]? = some m' :=
        ⟨_, List.getElem?_eq_getElem (hlen ▸ hlt)⟩
      show DeathEffect s ref ((s.setStatus ref .died).killModule ref.module (some ref)).1
      rw [killModule_pending hm' (hpending' m' (List.mem_of_getElem? hm'))]
      exact hdied
    | dirtyRestart | cleanRestart =>
      -- coprocd exits when another restart is still to be made.
      dsimp only
      unfold markForRestart
      split
      · exact ⟨hdied.pids, hdied.sizes, hdied.log, hdied.status, (fun h => by cases h),
        hdied.marks⟩
      · exact ⟨hdied.pids, hdied.sizes, hdied.log, hdied.status, hdied.fate, .inr rfl⟩
    | «continue» =>
      refine ⟨fun r => ?_, sizes_modifyDaemon.trans hdied.sizes, rfl, ?_, hdied.fate,
        .inl ⟨rfl, rfl⟩⟩
      · by_cases hr : r = ref
        · subst hr
          exact .inr ⟨rfl, pidAt_setPid_self (by rwa [pidAt_setStatus])⟩
        · exact .inl (by rw [pidAt_setPid_ne hr, pidAt_setStatus])
      · rw [status_setPid]
        exact hdied.status

end Death

/-! ### The launch -/

/-- The pids that the launch gets are those of new processes. -/
structure LaunchPids (mypid : Nat) (o : Launch) : Prop where
  pos : ∀ ref pid, o.spawn ref = some pid → pid ≠ 0 ∧ pid ≠ mypid
  apart : ∀ ref ref' pid, o.spawn ref = some pid → o.spawn ref' = some pid → ref = ref'

/-- In the launch an entry has no pid, or its own. -/
structure FromBoot (mypid : Nat) (o : Launch) (s : Manager) : Prop where
  pids : ∀ r pid, s.pidAt r = some pid →
    pid = 0 ∨ (r = ⟨0, 0⟩ ∧ pid = mypid) ∨ o.spawn r = some pid
  daemonRestart : s.daemonRestart = none
  moduleRestart : s.moduleRestart = none

section Launching
variable {s s' : Manager} {mypid k : Nat} {o : Launch} {ref : DaemonRef}

theorem fromBoot_setStatus (h : FromBoot mypid o s) (status : Status) :
    FromBoot mypid o (s.setStatus ref status) :=
  ⟨fun r pid hr => h.pids r pid (by rwa [pidAt_setStatus] at hr), h.daemonRestart,
    h.moduleRestart⟩

theorem fromBoot_setPid {pid : Nat} (h : FromBoot mypid o s)
    (hpid : (ref = ⟨0, 0⟩ ∧ pid = mypid) ∨ o.spawn ref = some pid) :
    FromBoot mypid o (s.setPid ref pid) := by
  refine ⟨fun r p hr => ?_, h.daemonRestart, h.moduleRestart⟩
  by_cases heq : r = ref
  · subst heq
    rw [pidAt_setPid] at hr
    obtain ⟨p', _, hp'⟩ := Option.map_eq_some_iff.mp hr
    rw [if_pos rfl] at hp'
    exact .inr (hp' ▸ hpid)
  · exact h.pids r p (by rwa [pidAt_setPid_ne heq] at hr)

theorem fromBoot_initDaemon (h : FromBoot mypid o s) : FromBoot mypid o (s.initDaemon ref o).1 := by
  unfold initDaemon
  dsimp only
  split
  · exact fromBoot_setStatus h _
  · rename_i pid hspawn
    exact fromBoot_setPid (fromBoot_setStatus h _) (.inr hspawn)

theorem fromBoot_foldl_replay (calls : List ModuleCall) (h : FromBoot mypid o s) :
    FromBoot mypid o (calls.foldl (replay k o) s) := by
  induction calls generalizing s with
  | nil => exact h
  | cons call calls ih =>
    refine ih ?_
    cases call with
    | start i => exact fromBoot_initDaemon h
    | wait i => exact fromBoot_setStatus h _

theorem fromBoot_initModule {started : Bool} (h : FromBoot mypid o s)
    (hs : s.initModule k o = some (s', started)) : FromBoot mypid o s' := by
  obtain ⟨m, hm, _⟩ := Option.bind_eq_some_iff.mp hs
  rw [initModule_eq_replay hm] at hs
  generalize (initCalls k o 0 false ((m.daemons.take m.ndaemons).map UkernelDaemon.flags)) = x at hs
  obtain ⟨calls, e⟩ := x
  cases e with
  | rejected i | waiting => cases hs
  | failed | completed =>
    cases hs
    exact fromBoot_foldl_replay calls h

theorem fromBoot_initCoreDaemons {is : List Nat} (h : FromBoot mypid o s)
    (hs : initCoreDaemons o is s = some s') : FromBoot mypid o s' := by
  induction is generalizing s with
  | nil =>
    cases hs
    exact h
  | cons i is ih =>
    have hinit : FromBoot mypid o (s.initDaemon ⟨0, i⟩ o).1 := fromBoot_initDaemon h
    rw [initCoreDaemons] at hs
    split at hs
    · rename_i d s₁ hd heq
      rw [heq] at hinit
      split at hs
      · split at hs
        · exact ih (fromBoot_setStatus hinit _) hs
        · exact ih (fromBoot_setStatus hinit _) hs
        · cases hs
      · exact ih hinit hs
    · cases hs

theorem fromBoot_initModules {ks : List Nat} (h : FromBoot mypid o s)
    (hs : initModules o ks s = some s') : FromBoot mypid o s' := by
  induction ks generalizing s with
  | nil =>
    cases hs
    exact h
  | cons k ks ih =>
    rw [initModules] at hs
    split at hs
    · rename_i hinit
      split at hs
      · cases hs
      · exact ih (fromBoot_initModule h hinit) hs
    · cases hs

theorem fromBoot_initMicrokernel {modules : List UkernelModule} {progname : String}
    (ht : ∀ m ∈ modules, Declared m)
    (hinit : (boot mypid modules).initMicrokernel progname o = some s) : FromBoot mypid o s := by
  have hboot : FromBoot mypid o { boot mypid modules with handler := .daemonDied } := by
    refine ⟨fun r pid hr => ?_, rfl, rfl⟩
    obtain ⟨d, hd, rfl⟩ := Option.map_eq_some_iff.mp hr
    obtain ⟨m, hm, hmem⟩ := Option.bind_eq_some_iff.mp hd
    exact .inl ((ht m (List.mem_of_getElem? hm)).daemons d (List.mem_of_getElem? hmem)).1
  obtain ⟨s₁, hcore, hmodules⟩ := Option.bind_eq_some_iff.mp hinit
  refine fromBoot_initModules ?_ hmodules
  unfold initCore at hcore
  obtain ⟨m, _, hcore⟩ := Option.bind_eq_some_iff.mp hcore
  obtain ⟨d, _, hcore⟩ := Option.bind_eq_some_iff.mp hcore
  split at hcore
  · cases hcore
  · dsimp only at hcore
    split at hcore
    · cases hcore
    · exact fromBoot_initCoreDaemons
        (fromBoot_setStatus (fromBoot_setPid hboot (.inl ⟨rfl, rfl⟩)) _) hcore

end Launching

end Comsg.Proofs.Coprocd
