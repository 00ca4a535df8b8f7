import Comsg.Coprocd.Module
import Mathlib.Data.List.Nodup

/-!
# `Comsg.Proofs.Coprocd.KillModule`: which daemons `kill_module` kills

The loop of `kill_module` takes daemon `i` of module `i` of the table, where it is to take daemon
`i` of its own module. The two agree for one value of `i` at most. So `kill_module` does its work
for a module with one daemon, and for a second module with two (`kill_module_exact_iff`).

The number that it returns makes `kill_and_reap_module` wait for all daemons of the module, also
for the one that it has spared. A signal to coprocd itself ends `kill_module` before it returns.
-/

set_option autoImplicit false

namespace Comsg.Proofs.Coprocd

open Comsg.Coprocd
open Comsg.Coprocd.Manager

section Updates
variable {s : Manager} {ref r : DaemonRef} {f : UkernelDaemon → UkernelDaemon}

theorem daemon?_modifyDaemon :
    (s.modifyDaemon ref f).daemon? r = (s.daemon? r).map fun d => if r = ref then f d else d := by
  obtain ⟨j, i⟩ := ref
  obtain ⟨j', i'⟩ := r
  simp only [daemon?, modifyDaemon, List.getElem?_modify]
  cases hm : s.modules[j']? with
  | none => simp
  | some m =>
    by_cases hj : j = j'
    · subst hj
      simp only [if_true, Option.bind_some, UkernelModule.modifyDaemon]
      by_cases hi : i = i'
      · subst hi
        simp
      · have hne : (⟨j, i'⟩ : DaemonRef) ≠ ⟨j, i⟩ := by
          intro heq
          exact hi (congrArg DaemonRef.daemon heq).symm
        simp [hi, hne]
    · have hne : (⟨j', i'⟩ : DaemonRef) ≠ ⟨j, i⟩ := by
        intro heq
        exact hj (congrArg DaemonRef.module heq).symm
      simp [hj, hne]

theorem daemon?_kill {pid : Nat} : (s.kill ref pid).daemon? r = s.daemon? r := rfl

end Updates

/-! ### A round of kills -/

/-- The call of `kill` for a daemon. -/
def killOf (s : Manager) (ref : DaemonRef) : Kill :=
  ⟨ref, ((s.daemon? ref).map UkernelDaemon.pid).getD 0⟩

/-- The daemon is there, and coprocd runs on after the signal to it. -/
def Survives (s : Manager) (ref : DaemonRef) : Prop :=
  ∃ d, s.daemon? ref = some d ∧ d.pid ≠ 0 ∧ d.pid ≠ s.mypid

/-- `s'` is `s` after the daemons `refs` were killed, but for the reason. -/
structure Killed (reason : Option DaemonRef) (refs : List DaemonRef) (s s' : Manager) : Prop where
  fate : s'.fate = .running
  mypid : s'.mypid = s.mypid
  daemons : ∀ r, s'.daemon? r =
    (s.daemon? r).map fun d =>
      if r ∈ refs ∧ some r ≠ reason then { d with status := .killed } else d
  log : s'.log = s.log ++ (refs.filter fun r => some r ≠ reason).map (killOf s)

section Rounds
variable {s s' : Manager} {reason : Option DaemonRef} {ref r : DaemonRef} {refs : List DaemonRef}

/-- Nothing happens after coprocd has ended. -/
theorem foldl_killUnless_stopped (h : s.fate ≠ .running) :
    refs.foldl (killUnless reason) s = s := by
  induction refs with
  | nil => rfl
  | cons r refs ih =>
    have hsame : killUnless reason s r = s := if_pos h
    rw [List.foldl_cons, hsame, ih]

/-- Killing one daemon. -/
theorem killed_one (hfate : s.fate = .running) (hne : some ref ≠ reason) (h : Survives s ref) :
    Killed reason [ref] s (killUnless reason s ref) := by
  obtain ⟨d, hd, hzero, hself⟩ := h
  have heq : killUnless reason s ref = (s.setStatus ref .killed).kill ref d.pid := by
    rw [killUnless, if_neg (by simp [hfate]), if_neg hne, hd]
  rw [heq]
  constructor
  · show (if d.pid = 0 ∨ d.pid = s.mypid then Fate.killed else s.fate) = .running
    rw [if_neg (by simp [hzero, hself]), hfate]
  · rfl
  · intro r
    rw [daemon?_kill, setStatus, daemon?_modifyDaemon]
    congr 1
    funext d'
    by_cases hr : r = ref
    · subst hr
      simp [hne]
    · simp [hr]
  · show s.log ++ [⟨ref, d.pid⟩] = _
    simp [hne, killOf, hd]

theorem killed_nil (hfate : s.fate = .running) : Killed reason [] s s := by
  refine ⟨hfate, rfl, fun r => ?_, by simp⟩
  cases s.daemon? r <;> simp

/-- Kills leave the pids alone. -/
theorem Killed.survives_iff (h : Killed reason refs s s') : Survives s' r ↔ Survives s r := by
  simp only [Survives, h.daemons r, h.mypid]
  constructor
  · rintro ⟨d', hd', hzero, hself⟩
    obtain ⟨d, hd, rfl⟩ := Option.map_eq_some_iff.mp hd'
    refine ⟨d, hd, ?_, ?_⟩
    · split at hzero <;> exact hzero
    · split at hself <;> exact hself
  · rintro ⟨d, hd, hzero, hself⟩
    refine ⟨_, by rw [hd]; rfl, ?_, ?_⟩
    · split <;> exact hzero
    · split <;> exact hself

theorem Killed.killOf_eq (h : Killed reason refs s s') : killOf s' r = killOf s r := by
  simp only [killOf, h.daemons r]
  cases s.daemon? r with
  | none => rfl
  | some d =>
    simp only [Option.map_some, Option.getD_some]
    split <;> rfl

/-- Two rounds of kills. -/
theorem Killed.append {refs' : List DaemonRef} {s'' : Manager} (h : Killed reason refs s s')
    (h' : Killed reason refs' s' s'') : Killed reason (refs ++ refs') s s'' := by
  refine ⟨h'.fate, h'.mypid.trans h.mypid, fun r => ?_, ?_⟩
  · rw [h'.daemons r, h.daemons r, Option.map_map]
    congr 1
    funext d
    by_cases hr : some r = reason
    · simp [hr]
    · by_cases hin : r ∈ refs <;> by_cases hin' : r ∈ refs' <;> simp [hr, hin, hin']
  · have hsame : (refs'.filter fun r => some r ≠ reason).map (killOf s') =
        (refs'.filter fun r => some r ≠ reason).map (killOf s) :=
      List.map_congr_left fun r _ => h.killOf_eq
    rw [h'.log, h.log, hsame, List.filter_append, List.map_append, List.append_assoc]

/-- The daemon that is the reason is passed over. -/
theorem Killed.cons_reason (h : Killed reason refs s s') (hr : some ref = reason) :
    Killed reason (ref :: refs) s s' := by
  refine ⟨h.fate, h.mypid, fun r => ?_, ?_⟩
  · rw [h.daemons r]
    congr 1
    funext d
    by_cases heq : r = ref
    · subst heq
      simp [hr]
    · simp [heq]
  · rw [h.log, List.filter_cons_of_neg (by simp [hr])]

/-- What the kills of a list of daemons do, if coprocd survives each of them. -/
theorem foldl_killed (hfate : s.fate = .running)
    (h : ∀ r ∈ refs, some r ≠ reason → Survives s r) :
    Killed reason refs s (refs.foldl (killUnless reason) s) := by
  induction refs generalizing s with
  | nil => exact killed_nil hfate
  | cons ref refs ih =>
    rw [List.foldl_cons]
    by_cases hr : some ref = reason
    · have hsame : killUnless reason s ref = s := by
        rw [killUnless, if_neg (by simp [hfate]), if_pos hr]
      rw [hsame]
      exact (ih hfate fun r hmem => h r (List.mem_cons_of_mem _ hmem)).cons_reason hr
    · have hone := killed_one hfate hr (h ref List.mem_cons_self hr)
      refine hone.append (ih hone.fate fun r hmem hne => ?_)
      exact hone.survives_iff.mpr (h r (List.mem_cons_of_mem _ hmem) hne)

/-- If coprocd runs on after the kills, then it has survived each of them. -/
theorem survives_of_foldl (hfate : s.fate = .running)
    (h : (refs.foldl (killUnless reason) s).fate = .running) :
    ∀ r ∈ refs, some r ≠ reason → Survives s r := by
  induction refs generalizing s with
  | nil => simp
  | cons ref refs ih =>
    rw [List.foldl_cons] at h
    have hstep : (killUnless reason s ref).fate = .running := by
      by_contra hstop
      rw [foldl_killUnless_stopped hstop] at h
      exact hstop h
    have hrest := ih hstep h
    by_cases hr : some ref = reason
    · have hsame : killUnless reason s ref = s := by
        rw [killUnless, if_neg (by simp [hfate]), if_pos hr]
      rw [hsame] at hrest
      intro r hmem hne
      rcases List.mem_cons.mp hmem with rfl | hmem
      · exact absurd hr hne
      · exact hrest r hmem hne
    · have hfirst : Survives s ref := by
        rw [killUnless, if_neg (by simp [hfate]), if_neg hr] at hstep
        cases hd : s.daemon? ref with
        | none => simp [hd] at hstep
        | some d =>
          simp only [hd, kill] at hstep
          split at hstep
          · cases hstep
          · rename_i hself
            exact ⟨d, hd, fun hzero => hself (.inl hzero), fun heq => hself (.inr heq)⟩
      intro r hmem hne
      rcases List.mem_cons.mp hmem with rfl | hmem
      · exact hfirst
      · exact (killed_one hfate hr hfirst).survives_iff.mp (hrest r hmem hne)

end Rounds

/-! ### `kill_module` -/

/-- The daemons of module `k` but for the reason. -/
def Target (m : UkernelModule) (k : Nat) (reason : Option DaemonRef) (ref : DaemonRef) : Prop :=
  ref.module = k ∧ ref.daemon < m.ndaemons ∧ some ref ≠ reason

/-- `kill_module` returns, has sent one signal to each target and to no other daemon, has marked
the targets and changed no other daemon, and has the targets reaped. -/
structure KillsExactly (s : Manager) (m : UkernelModule) (k : Nat) (reason : Option DaemonRef) :
    Prop where
  returns : (s.killModule k reason).1.fate = .running
  signals : ∃ kills, (s.killModule k reason).1.log = s.log ++ kills ∧
    (∀ x ∈ kills, x = killOf s x.daemon) ∧
    ∀ ref, (Target m k reason ref → (kills.map Kill.daemon).count ref = 1) ∧
      (¬Target m k reason ref → (kills.map Kill.daemon).count ref = 0)
  marks : ∀ ref, (Target m k reason ref → (s.killModule k reason).1.daemon? ref =
      (s.daemon? ref).map fun d => { d with status := .killed }) ∧
    (¬Target m k reason ref → (s.killModule k reason).1.daemon? ref = s.daemon? ref)
  reaps : ∀ ref, ref ∈ reaped k m.ndaemons (s.killModule k reason).2 ↔ Target m k reason ref

/-- The daemons that `kill_module` comes to. -/
def visited (k n : Nat) : List DaemonRef := ⟨k, 0⟩ :: (List.range' 1 (n - 1)).map fun i => ⟨i, i⟩

section KillModule
variable {s : Manager} {m : UkernelModule} {k : Nat} {reason : Option DaemonRef} {ref : DaemonRef}

theorem mem_visited {n : Nat} : ref ∈ visited k n ↔
    ref = ⟨k, 0⟩ ∨ ∃ i, 1 ≤ i ∧ i < n ∧ ref = ⟨i, i⟩ := by
  simp only [visited, List.mem_cons, List.mem_map, List.mem_range'_1]
  constructor
  · rintro (rfl | ⟨i, ⟨hge, hlt⟩, rfl⟩)
    · exact .inl rfl
    · exact .inr ⟨i, hge, by omega, rfl⟩
  · rintro (rfl | ⟨i, hge, hlt, rfl⟩)
    · exact .inl rfl
    · exact .inr ⟨i, ⟨hge, by omega⟩, rfl⟩

theorem nodup_visited {n : Nat} : (visited k n).Nodup := by
  refine List.nodup_cons.mpr ⟨?_, ?_⟩
  · rintro hmem
    obtain ⟨i, hi, heq⟩ := List.mem_map.mp hmem
    have hge := (List.mem_range'_1.mp hi).1
    have hzero : i = 0 := congrArg DaemonRef.daemon heq
    omega
  · exact List.Nodup.map (fun i j heq => congrArg DaemonRef.daemon heq) List.nodup_range'

/-- `kill_module` on a running module that is not led by its first daemon. -/
theorem killModule_eq (hm : s.modules[k]? = some m) (hstatus : m.status = .running)
    (hfirst : ∃ d, s.daemon? ⟨k, 0⟩ = some d ∧ ¬HasFlag d.flags leader) :
    s.killModule k reason =
      ((visited k m.ndaemons).foldl (killUnless reason) s, m.ndaemons) := by
  obtain ⟨d, hd, hleader⟩ := hfirst
  have hflag : ¬HasFlag d.flags (leader ||| setpgrp) := hleader
  simp only [killModule, hm, hstatus, hd, if_neg hflag, ne_eq, not_true_eq_false, and_false,
    if_false]
  rfl

theorem mem_reaped_all {n : Nat} : ref ∈ reaped k n n ↔ ref.module = k ∧ ref.daemon < n := by
  rw [reaped, if_pos rfl, List.mem_map]
  constructor
  · rintro ⟨i, hi, rfl⟩
    exact ⟨rfl, List.mem_range.mp hi⟩
  · rintro ⟨rfl, hlt⟩
    exact ⟨ref.daemon, List.mem_range.mpr hlt, rfl⟩

/-- The condition on a module: the loop stays within it. -/
def LoopStays (k n : Nat) : Prop := n = 1 ∨ (n = 2 ∧ k = 1)

theorem mem_visited_iff {n : Nat} (hpos : 1 ≤ n) (h : LoopStays k n) :
    ref ∈ visited k n ↔ ref.module = k ∧ ref.daemon < n := by
  obtain ⟨j, i⟩ := ref
  rw [mem_visited]
  simp only [DaemonRef.mk.injEq]
  rcases h with rfl | ⟨rfl, rfl⟩
  · constructor
    · rintro (⟨rfl, rfl⟩ | ⟨i', hge, hlt, -⟩)
      · exact ⟨rfl, hpos⟩
      · omega
    · rintro ⟨rfl, hlt⟩
      exact .inl ⟨rfl, by omega⟩
  · constructor
    · rintro (⟨rfl, rfl⟩ | ⟨i', hge, hlt, rfl, rfl⟩)
      · exact ⟨rfl, by omega⟩
      · exact ⟨by omega, hlt⟩
    · rintro ⟨rfl, hlt⟩
      rcases Nat.lt_or_ge i 1 with hi | hi
      · exact .inl ⟨rfl, by omega⟩
      · exact .inr ⟨1, by omega, by omega, rfl, by omega⟩

/-- A loop that leaves its module comes to a daemon of another one, in the place of one of its
own. -/
theorem exists_missed {n : Nat} (hpos : 1 ≤ n) (h : ¬LoopStays k n) :
    ∃ i, 1 ≤ i ∧ i < n ∧ i ≠ k := by
  by_contra hnone
  apply h
  by_cases hone : n = 1
  · exact .inl hone
  · have hk : 1 = k := by
      by_contra hne
      exact hnone ⟨1, by omega, by omega, hne⟩
    refine .inr ⟨?_, hk.symm⟩
    by_contra htwo
    exact hnone ⟨2, by omega, by omega, by omega⟩

/-- What a round of kills says about the signals. -/
theorem Killed.count_eq {refs : List DaemonRef} {s' : Manager} (h : Killed reason refs s s')
    (hnodup : refs.Nodup) {kills : List Kill} (hlog : s'.log = s.log ++ kills) :
    (∀ x ∈ kills, x = killOf s x.daemon) ∧ ∀ ref,
      (ref ∈ refs ∧ some ref ≠ reason → (kills.map Kill.daemon).count ref = 1) ∧
      (¬(ref ∈ refs ∧ some ref ≠ reason) → (kills.map Kill.daemon).count ref = 0) := by
  obtain rfl : kills = (refs.filter fun r => some r ≠ reason).map (killOf s) :=
    List.append_cancel_left (hlog.symm.trans h.log)
  have hrefs : ((refs.filter fun r => some r ≠ reason).map (killOf s)).map Kill.daemon =
      refs.filter fun r => some r ≠ reason := by
    rw [List.map_map]
    exact List.map_id _
  refine ⟨fun x hx => ?_, fun ref => ⟨fun hin => ?_, fun hout => ?_⟩⟩
  · obtain ⟨r, -, rfl⟩ := List.mem_map.mp hx
    rfl
  · rw [hrefs]
    have hmem : ref ∈ refs.filter fun r => some r ≠ reason :=
      List.mem_filter.mpr ⟨hin.1, by simpa using hin.2⟩
    exact List.count_eq_one_of_mem (hnodup.filter _) hmem
  · rw [hrefs]
    refine List.count_eq_zero_of_not_mem fun hmem => hout ?_
    obtain ⟨hin, hne⟩ := List.mem_filter.mp hmem
    exact ⟨hin, by simpa using hne⟩

/-- The condition is enough. -/
theorem killsExactly_of_stays (hm : s.modules[k]? = some m) (hfate : s.fate = .running)
    (hstatus : m.status = .running)
    (hfirst : ∃ d, s.daemon? ⟨k, 0⟩ = some d ∧ ¬HasFlag d.flags leader) (hpos : 1 ≤ m.ndaemons)
    (hstays : LoopStays k m.ndaemons) (hreason : ∀ i < m.ndaemons, some ⟨k, i⟩ ≠ reason)
    (hpids : ∀ i < m.ndaemons, Survives s ⟨k, i⟩) : KillsExactly s m k reason := by
  have heq : s.killModule k reason = _ := killModule_eq hm hstatus hfirst
  have hof {ref : DaemonRef} : ref ∈ visited k m.ndaemons ↔ Target m k reason ref := by
    rw [mem_visited_iff hpos hstays, Target]
    constructor
    · rintro ⟨rfl, hlt⟩
      exact ⟨rfl, hlt, hreason ref.daemon hlt⟩
    · rintro ⟨hk, hlt, -⟩
      exact ⟨hk, hlt⟩
  have hkilled : Killed reason (visited k m.ndaemons) s (s.killModule k reason).1 := by
    rw [heq]
    refine foldl_killed hfate fun r hr _ => ?_
    obtain ⟨rfl, hlt⟩ := (mem_visited_iff hpos hstays).mp hr
    exact hpids r.daemon hlt
  have htarget {ref : DaemonRef} :
      ref ∈ visited k m.ndaemons ∧ some ref ≠ reason ↔ Target m k reason ref := by
    rw [hof]
    exact ⟨fun h => h.1, fun h => ⟨h, h.2.2⟩⟩
  obtain ⟨hpid, hcount⟩ := hkilled.count_eq nodup_visited hkilled.log
  refine ⟨hkilled.fate, ⟨_, hkilled.log, hpid, fun ref => ?_⟩, fun ref => ?_, fun ref => ?_⟩
  · rw [← htarget]
    exact hcount ref
  · rw [hkilled.daemons ref, ← htarget]
    refine ⟨fun hin => ?_, fun hout => ?_⟩
    · simp only [if_pos hin]
    · simp only [if_neg hout, Option.map_id']
  · rw [heq, mem_reaped_all, ← mem_visited_iff hpos hstays, hof]

/-- The condition is necessary. -/
theorem stays_of_killsExactly (hm : s.modules[k]? = some m) (hfate : s.fate = .running)
    (hstatus : m.status = .running)
    (hfirst : ∃ d, s.daemon? ⟨k, 0⟩ = some d ∧ ¬HasFlag d.flags leader) (hpos : 1 ≤ m.ndaemons)
    (h : KillsExactly s m k reason) :
    LoopStays k m.ndaemons ∧ (∀ i < m.ndaemons, some ⟨k, i⟩ ≠ reason) ∧
      ∀ i < m.ndaemons, Survives s ⟨k, i⟩ := by
  have heq : s.killModule k reason = _ := killModule_eq hm hstatus hfirst
  have hreturns := h.returns
  rw [heq] at hreturns
  have hsurvives := survives_of_foldl hfate hreturns
  have hkilled := foldl_killed hfate hsurvives
  obtain ⟨kills, hlog, -, hcount⟩ := h.signals
  rw [heq] at hlog
  obtain ⟨-, hcount'⟩ := hkilled.count_eq nodup_visited hlog
  -- Who gets a signal is a target, and the other way round.
  have htarget (ref : DaemonRef) :
      ref ∈ visited k m.ndaemons ∧ some ref ≠ reason ↔ Target m k reason ref := by
    by_cases hin : ref ∈ visited k m.ndaemons ∧ some ref ≠ reason
    · refine ⟨fun _ => ?_, fun _ => hin⟩
      by_contra hout
      have hone := (hcount' ref).1 hin
      have hzero := (hcount ref).2 hout
      omega
    · refine ⟨fun hin' => absurd hin' hin, fun ht => ?_⟩
      have hone := (hcount ref).1 ht
      have hzero := (hcount' ref).2 hin
      omega
  have hreason : ∀ i < m.ndaemons, some ⟨k, i⟩ ≠ reason := by
    intro i hi
    have hreaped := h.reaps ⟨k, i⟩
    rw [heq, mem_reaped_all] at hreaped
    exact (hreaped.mp ⟨rfl, hi⟩).2.2
  have hstays : LoopStays k m.ndaemons := by
    by_contra hleaves
    obtain ⟨i, hge, hlt, hne⟩ := exists_missed hpos hleaves
    -- Daemon `i` of the module is a target that the loop does not come to.
    have hin := ((htarget ⟨k, i⟩).mpr ⟨rfl, hlt, hreason i hlt⟩).1
    rcases mem_visited.mp hin with hzero | ⟨j, -, -, hj⟩
    · have hi : i = 0 := congrArg DaemonRef.daemon hzero
      omega
    · cases hj
      exact hne rfl
  refine ⟨hstays, hreason, fun i hi => ?_⟩
  exact hsurvives ⟨k, i⟩ ((mem_visited_iff hpos hstays).mpr ⟨rfl, hi⟩) (hreason i hi)

/-- For every table, every running module whose first daemon is not a leader and every reason:
`kill_module` kills exactly its module if and only if the module has one daemon, or two and is the
second one of the table, the reason is not of the module, and no daemon of it has the pid of
coprocd or none. -/
theorem kill_module_exact_iff (hm : s.modules[k]? = some m) (hfate : s.fate = .running)
    (hstatus : m.status = .running)
    (hfirst : ∃ d, s.daemon? ⟨k, 0⟩ = some d ∧ ¬HasFlag d.flags leader) (hpos : 1 ≤ m.ndaemons) :
    KillsExactly s m k reason ↔
      (m.ndaemons = 1 ∨ (m.ndaemons = 2 ∧ k = 1)) ∧
      (∀ i < m.ndaemons, some ⟨k, i⟩ ≠ reason) ∧
      ∀ i < m.ndaemons, ∃ d, s.daemon? ⟨k, i⟩ = some d ∧ d.pid ≠ 0 ∧ d.pid ≠ s.mypid := by
  constructor
  · intro h
    exact stays_of_killsExactly hm hfate hstatus hfirst hpos h
  · rintro ⟨hstays, hreason, hpids⟩
    exact killsExactly_of_stays hm hfate hstatus hfirst hpos hstays hreason hpids

end KillModule

/-- A running module with daemons of the given pids. -/
def runningModule (pids : List Nat) (h : pids.length ≤ maxModuleDaemons) : UkernelModule where
  moduleName := "module"
  type := .peripheral
  ndaemons := pids.length
  status := .running
  flags := 0
  init := ⟨false, false⟩
  fini := none
  daemons := (List.range maxModuleDaemons).map fun i =>
    ⟨"daemon", pids.getD i 0, .kill, synchronous, .running⟩
  length_eq := List.length_map .. |>.trans List.length_range
  ndaemons_le := h

/-- coprocd with pid 1 and three modules of two daemons each. -/
def threeModules : Manager where
  mypid := 1
  modules := [runningModule [1, 2] (by decide), runningModule [3, 4] (by decide),
    runningModule [5, 6] (by decide)]
  handler := .daemonDied
  daemonRestart := none
  moduleRestart := none
  log := []
  fate := .running

/-- The second module is killed, and nothing else. -/
theorem kill_module_exact_iff_second :
    KillsExactly threeModules (runningModule [3, 4] (by decide)) 1 none := by
  refine (kill_module_exact_iff rfl rfl rfl ⟨_, rfl, by decide⟩ (by decide)).mpr ?_
  refine ⟨.inr ⟨rfl, rfl⟩, by simp, fun i hi => ?_⟩
  have hlt : i < 2 := hi
  obtain rfl | rfl : i = 0 ∨ i = 1 := by omega
  · exact ⟨_, rfl, by decide, by decide⟩
  · exact ⟨_, rfl, by decide, by decide⟩

/-- The third module is to be killed. Its first daemon is killed, and the second daemon of the
second module. -/
theorem kill_module_kills_other :
    ((threeModules.killModule 2 none).1.log = [⟨⟨2, 0⟩, 5⟩, ⟨⟨1, 1⟩, 4⟩]) ∧
    ¬KillsExactly threeModules (runningModule [5, 6] (by decide)) 2 none := by
  refine ⟨by decide, fun h => ?_⟩
  have hstays := (stays_of_killsExactly rfl rfl rfl ⟨_, rfl, by decide⟩ (by decide) h).1
  rcases hstays with hone | ⟨-, htwo⟩
  · cases hone
  · cases htwo

end Comsg.Proofs.Coprocd
