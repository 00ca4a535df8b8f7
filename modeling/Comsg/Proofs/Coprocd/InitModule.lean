import Comsg.Coprocd.InitModule
import Comsg.Proofs.Coprocd.KillModule

/-!
# `Comsg.Proofs.Coprocd.InitModule`: `init_module` against the documented flags

The constants of `daemon_flags` are 0 to 4, and `init_module` tests them as masks. No word has the
flag `SETPGRP` then, and `ON_DEMAND` has the bits of `LEADER` and of `SETUID`. So a module with
`LEADER` or `ON_DEMAND` is always rejected, and a daemon with `SETUID` is not started
(`initCalls_eq`). `init_module_flags_iff` says for which modules this is what is documented.

`initModule_eq_replay` connects the calls with the model of coprocd's table.
-/

set_option autoImplicit false

namespace Comsg.Proofs.Coprocd

open Comsg.Coprocd
open Comsg.Coprocd.Manager

/-! ### The flags as masks -/

section Masks
variable (f : DaemonFlags)

theorem not_hasFlag_setpgrp (w : Nat) : ¬HasFlag w Coprocd.setpgrp := by
  simp [HasFlag, Coprocd.setpgrp]

theorem hasFlag_leader : HasFlag f.word Coprocd.leader ↔ f.leader = true ∨ f.onDemand = true := by
  obtain ⟨p, l, u, d, y⟩ := f
  revert p l u d y
  decide

theorem hasFlag_onDemand : HasFlag f.word Coprocd.onDemand ↔
    f.leader = true ∨ f.setuid = true ∨ f.onDemand = true := by
  obtain ⟨p, l, u, d, y⟩ := f
  revert p l u d y
  decide

theorem hasFlag_synchronous : HasFlag f.word Coprocd.synchronous ↔ f.synchronous = true := by
  obtain ⟨p, l, u, d, y⟩ := f
  revert p l u d y
  decide

end Masks

/-! ### The loop -/

/-- The flags of a daemon that `init_module` does not reject. -/
def Accepted (f : DaemonFlags) : Prop := f.leader = false ∧ f.onDemand = false

section Loop
variable {k i : Nat} {o : Launch} {f : DaemonFlags} {fs : List DaemonFlags}

/-- The first daemon that seems to have `LEADER` ends the loop: it never seems to have `SETPGRP`. -/
theorem initCalls_rejected (h : f.leader = true ∨ f.onDemand = true) (expect : Bool)
    (ws : List Nat) : initCalls k o i expect (f.word :: ws) = ([], .rejected i) := by
  have hbad : flagsOk f.word i (expect || decide (HasFlag f.word Coprocd.leader)) = false := by
    rw [flagsOk, if_pos ((hasFlag_leader f).mpr h)]
    simp [not_hasFlag_setpgrp]
  rw [initCalls]
  simp [hbad]

/-- Another daemon is started, unless it has `SETUID`. -/
theorem initCalls_accepted (ho : o.Succeeds k) (h : Accepted f) (ws : List Nat) :
    initCalls k o i false (f.word :: ws) =
      ((if f.setuid then [] else if f.synchronous then [.start i, .wait i] else [.start i]) ++
        (initCalls k o (i + 1) false ws).1, (initCalls k o (i + 1) false ws).2) := by
  have hleader : ¬HasFlag f.word Coprocd.leader := by
    rw [hasFlag_leader, h.1, h.2]
    decide
  have hok : flagsOk f.word i false = true := by
    simp [flagsOk, hleader, not_hasFlag_setpgrp]
  obtain ⟨hspawn, hready⟩ := ho i
  have hdemand : HasFlag f.word Coprocd.onDemand ↔ f.setuid = true := by
    rw [hasFlag_onDemand, h.1, h.2]
    simp
  have hnone : (o.spawn ⟨k, i⟩).isNone = false := by simpa using hspawn
  rw [initCalls]
  simp only [hleader, decide_false, Bool.or_false, hok, Bool.true_eq_false, if_false,
    not_false_eq_true, true_and, hdemand, hasFlag_synchronous, hnone, Bool.false_eq_true]
  cases f.setuid with
  | true => rfl
  | false =>
    cases f.synchronous with
    | true => obtain hready | hready := hready <;> simp [hready]
    | false => simp

/-- What `init_module` does when the daemons come up. -/
theorem initCalls_eq (ho : o.Succeeds k) (h : ∀ f ∈ fs, Accepted f) (i : Nat) :
    initCalls k o i false (fs.map DaemonFlags.word) =
      (callsExcept DaemonFlags.setuid i fs, .completed) := by
  induction fs generalizing i with
  | nil => rfl
  | cons f fs ih =>
    have hrest := ih (fun g hg => h g (List.mem_cons_of_mem f hg)) (i + 1)
    rw [List.map_cons, initCalls_accepted ho (h f List.mem_cons_self), hrest]
    rfl

theorem isRejected_iff (ho : o.Succeeds k) (fs : List DaemonFlags) (i : Nat) :
    (initCalls k o i false (fs.map DaemonFlags.word)).2.isRejected = true ↔
      ∃ f ∈ fs, ¬Accepted f := by
  induction fs generalizing i with
  | nil => simp [initCalls, ModuleEnd.isRejected]
  | cons f fs ih =>
    rw [List.map_cons]
    by_cases hf : Accepted f
    · rw [initCalls_accepted ho hf, ih (i + 1)]
      simp [hf]
    · have hbad : f.leader = true ∨ f.onDemand = true := by
        by_contra hnone
        exact hf (by simpa [Accepted, not_or] using hnone)
      rw [initCalls_rejected hbad]
      exact iff_of_true rfl ⟨f, List.mem_cons_self, hf⟩

end Loop

/-! ### The table -/

section Table
variable {k : Nat} {o : Launch} {s : Manager} {ref r : DaemonRef}

/-- The flags of a daemon in the table. -/
def flagsAt (s : Manager) (ref : DaemonRef) : Option Nat := (s.daemon? ref).map UkernelDaemon.flags

theorem flagsAt_modifyDaemon {f : UkernelDaemon → UkernelDaemon} (hf : ∀ d, (f d).flags = d.flags) :
    flagsAt (s.modifyDaemon ref f) r = flagsAt s r := by
  unfold flagsAt
  rw [daemon?_modifyDaemon]
  cases s.daemon? r with
  | none => rfl
  | some d => by_cases hr : r = ref <;> simp [hr, hf]

theorem flagsAt_setStatus (status : Status) : flagsAt (s.setStatus ref status) r = flagsAt s r :=
  flagsAt_modifyDaemon fun _ => rfl

theorem flagsAt_setPid (pid : Nat) : flagsAt (s.setPid ref pid) r = flagsAt s r :=
  flagsAt_modifyDaemon fun _ => rfl

theorem flagsAt_initDaemon : flagsAt (s.initDaemon ref o).1 r = flagsAt s r := by
  unfold initDaemon
  dsimp only
  split
  · exact flagsAt_setStatus _
  · rw [flagsAt_setPid, flagsAt_setStatus]

theorem initDaemon_snd : (s.initDaemon ref o).2 = (o.spawn ref).isSome := by
  unfold initDaemon
  dsimp only
  cases o.spawn ref <;> rfl

/-- The loop over the table makes these calls, and ends this way. -/
theorem initDaemons_eq_replay {ws : List Nat} {i : Nat} {expect : Bool}
    (h : ∀ j w, ws[j]? = some w → flagsAt s ⟨k, i + j⟩ = some w) :
    initDaemons k o (List.range' i ws.length) expect s =
      (initCalls k o i expect ws).2.result
        ((initCalls k o i expect ws).1.foldl (replay k o) s) := by
  induction ws generalizing i expect s with
  | nil => rfl
  | cons w ws ih =>
    obtain ⟨d, hd, hw⟩ := Option.map_eq_some_iff.mp (h 0 w rfl)
    -- What the rest of the loop finds is what was there before.
    have hnext {s' : Manager} (hs' : ∀ ref, flagsAt s' ref = flagsAt s ref) :
        ∀ j v, ws[j]? = some v → flagsAt s' ⟨k, i + 1 + j⟩ = some v := by
      intro j v hv
      rw [hs', Nat.add_assoc, Nat.add_comm 1 j]
      exact h (j + 1) v hv
    have hsnd : (s.initDaemon ⟨k, i⟩ o).2 = (o.spawn ⟨k, i⟩).isSome := initDaemon_snd
    have hflags : ∀ ref, flagsAt (s.initDaemon ⟨k, i⟩ o).1 ref = flagsAt s ref :=
      fun ref => flagsAt_initDaemon
    rw [List.length_cons, List.range'_succ, initDaemons, initCalls]
    simp only [Nat.add_zero] at hd
    simp only [hd, hw]
    split
    · rfl
    · split
      · exact ih (hnext fun _ => rfl)
      · cases hinit : s.initDaemon ⟨k, i⟩ o with
        | mk s₁ started =>
          rw [hinit] at hsnd hflags
          have hstart : replay k o s (.start i) = s₁ := congrArg Prod.fst hinit
          cases started with
          | false =>
            have hnone : (o.spawn ⟨k, i⟩).isNone = true := by
              simpa [Option.isSome_eq_false_iff] using hsnd.symm
            simp [hnone, ModuleEnd.result, hstart]
          | true =>
            have hsome : (o.spawn ⟨k, i⟩).isNone = false := by simpa using hsnd.symm
            simp only [hsome, Bool.false_eq_true, if_false]
            split
            · -- The daemon is waited for, until it has another status than `STARTING`.
              have hrest := @ih (s₁.setStatus ⟨k, i⟩ (o.ready ⟨k, i⟩)) (i + 1)
                (expect || decide (HasFlag w Coprocd.leader))
                (hnext fun ref => (flagsAt_setStatus _).trans (hflags ref))
              have hwait : replay k o s₁ (.wait i) = s₁.setStatus ⟨k, i⟩ (o.ready ⟨k, i⟩) := rfl
              cases hready : o.ready ⟨k, i⟩ <;> simp only [hready] at hrest hwait ⊢ <;>
                simp only [hrest, List.foldl_cons, List.foldl_nil, hstart, hwait,
                  ModuleEnd.result]
            · simp only [ih (hnext hflags), List.foldl_cons, hstart]

/-- `init_module` makes the calls of `initCalls`. -/
theorem initModule_eq_replay {m : UkernelModule} (hm : s.modules[k]? = some m) :
    s.initModule k o =
      (initCalls k o 0 false ((m.daemons.take m.ndaemons).map UkernelDaemon.flags)).2.result
        ((initCalls k o 0 false
          ((m.daemons.take m.ndaemons).map UkernelDaemon.flags)).1.foldl (replay k o) s) := by
  have hlen : ((m.daemons.take m.ndaemons).map UkernelDaemon.flags).length = m.ndaemons := by
    rw [List.length_map, List.length_take, m.length_eq]
    exact Nat.min_eq_left m.ndaemons_le
  have hflags : ∀ j w, ((m.daemons.take m.ndaemons).map UkernelDaemon.flags)[j]? = some w →
      flagsAt s ⟨k, 0 + j⟩ = some w := by
    intro j w hw
    rw [List.getElem?_map, List.getElem?_take] at hw
    split at hw
    · simpa [flagsAt, daemon?, hm] using hw
    · cases hw
  rw [← initDaemons_eq_replay hflags, hlen, ← List.range_eq_range']
  simp [initModule, hm]

end Table

/-! ### Against the documentation -/

section Documented
variable {fs : List DaemonFlags} {skip skip' : DaemonFlags → Bool}

/-- The calls from daemon `i` on are for that daemon and later ones. -/
theorem le_of_start_mem {i j : Nat} (h : .start j ∈ callsExcept skip i fs) : i ≤ j := by
  induction fs generalizing i with
  | nil => cases h
  | cons f fs ih =>
    rw [callsExcept, List.mem_append] at h
    obtain h | h := h
    · split at h
      · cases h
      · split at h <;> simp at h <;> omega
    · have := ih h
      omega

/-- Two lists of calls that agree skip the same daemons. -/
theorem skip_eq_of_calls {i : Nat} (h : callsExcept skip i fs = callsExcept skip' i fs) :
    ∀ f ∈ fs, skip f = skip' f := by
  induction fs generalizing i with
  | nil => exact nofun
  | cons f fs ih =>
    -- The first daemon is started in both lists or in none, since no later call is for it.
    have hnot (sk : DaemonFlags → Bool) : .start i ∉ callsExcept sk (i + 1) fs := fun hmem => by
      have := le_of_start_mem hmem
      omega
    have hmem (sk : DaemonFlags → Bool) : .start i ∈ callsExcept sk i (f :: fs) ↔ sk f = false := by
      rw [callsExcept, List.mem_append]
      cases hsk : sk f with
      | true => simp [hnot]
      | false => cases f.synchronous <;> simp
    have hf : skip f = skip' f := by
      have hiff := (hmem skip).symm.trans (h ▸ hmem skip')
      cases hs : skip f <;> cases hs' : skip' f <;> simp [hs, hs'] at hiff ⊢
    intro g hg
    obtain rfl | hg := List.mem_cons.mp hg
    · exact hf
    · rw [callsExcept, callsExcept, hf] at h
      exact ih (List.append_cancel_left h) g hg

/-- Lists of calls that skip the same daemons agree. -/
theorem calls_congr {i : Nat} (h : ∀ f ∈ fs, skip f = skip' f) :
    callsExcept skip i fs = callsExcept skip' i fs := by
  induction fs generalizing i with
  | nil => rfl
  | cons f fs ih =>
    rw [callsExcept, callsExcept, h f List.mem_cons_self,
      ih fun g hg => h g (List.mem_cons_of_mem f hg)]

/-- Modules for which the flags work: those without any flag but `SYNCHRONOUS`, and those that break
the rules and have `LEADER` or `ON_DEMAND`. -/
def FlagsWork (fs : List DaemonFlags) : Prop :=
  (∀ f ∈ fs, f.setpgrp = false ∧ f.leader = false ∧ f.setuid = false ∧ f.onDemand = false) ∨
  ((∃ f ∈ fs, f.leader = true ∨ f.onDemand = true) ∧ ¬RulesMet fs)

/-- A launch in which every daemon comes up. -/
def upLaunch : Launch := ⟨fun _ => some 100, fun _ => .running⟩

theorem upLaunch_succeeds (k : Nat) : upLaunch.Succeeds k := fun _ => ⟨rfl, .inr rfl⟩

theorem not_accepted_iff {f : DaemonFlags} :
    ¬Accepted f ↔ f.leader = true ∨ f.onDemand = true := by
  cases hl : f.leader <;> cases hd : f.onDemand <;> simp [Accepted, hl, hd]

/-- A module without `SETPGRP` and `LEADER` meets the rules. -/
theorem rulesMet_of_none (h : ∀ f ∈ fs, f.setpgrp = false ∧ f.leader = false) : RulesMet fs where
  first i f hi hl := by
    rw [(h f (List.mem_of_getElem? hi)).2] at hl
    cases hl
  all := by
    rintro ⟨f, hf, hl⟩
    rw [(h f hf).2] at hl
    cases hl
  led := by
    rintro ⟨f, hf, hp⟩
    rw [(h f hf).1] at hp
    cases hp

/-- `init_module` does what is documented for the modules whose flags work, and for no other. -/
theorem init_module_flags_iff (k : Nat) (fs : List DaemonFlags) :
    ImplementsFlags k fs ↔ FlagsWork fs := by
  constructor
  · intro himp
    have hup := upLaunch_succeeds k
    obtain ⟨hrejects, hcalls⟩ := himp upLaunch hup
    by_cases hacc : ∀ f ∈ fs, Accepted f
    · -- The module is not rejected, so it meets the rules, and the calls are the documented ones.
      have hnot : ¬∃ f ∈ fs, ¬Accepted f := fun ⟨f, hf, hne⟩ => hne (hacc f hf)
      have hrules : RulesMet fs := by
        by_contra hbroken
        exact hnot ((isRejected_iff hup fs 0).mp (hrejects.mpr hbroken))
      have heq := hcalls hrules
      rw [initCalls_eq hup hacc] at heq
      have hskip := skip_eq_of_calls (Prod.mk.inj heq).1
      left
      intro f hf
      obtain ⟨hleader, hdemand⟩ := hacc f hf
      refine ⟨?_, hleader, (hskip f hf).trans hdemand, hdemand⟩
      by_contra hp
      obtain ⟨g, hg, hl⟩ := hrules.led ⟨f, hf, by simpa using hp⟩
      rw [(hacc g hg).1] at hl
      cases hl
    · right
      obtain ⟨f, hf, hne⟩ : ∃ f ∈ fs, ¬Accepted f := by simpa using hacc
      exact ⟨⟨f, hf, not_accepted_iff.mp hne⟩,
        hrejects.mp ((isRejected_iff hup fs 0).mpr ⟨f, hf, hne⟩)⟩
  · rintro (hplain | ⟨⟨f, hf, hbad⟩, hbroken⟩) o ho
    · have hacc : ∀ f ∈ fs, Accepted f := fun f hf => ⟨(hplain f hf).2.1, (hplain f hf).2.2.2⟩
      have hrules : RulesMet fs :=
        rulesMet_of_none fun f hf => ⟨(hplain f hf).1, (hplain f hf).2.1⟩
      refine ⟨iff_of_false ?_ (not_not_intro hrules), fun _ => ?_⟩
      · rw [isRejected_iff ho]
        exact fun ⟨f, hf, hne⟩ => hne (hacc f hf)
      · rw [initCalls_eq ho hacc, documentedCalls, calls_congr fun f hf => ?_]
        rw [(hplain f hf).2.2.1, (hplain f hf).2.2.2]
    · refine ⟨iff_of_true ?_ hbroken, fun hrules => absurd hrules hbroken⟩
      exact (isRejected_iff ho fs 0).mpr ⟨f, hf, not_accepted_iff.mpr hbad⟩

end Documented

/-- A module with one daemon that leads its own process group. It meets the rules, and
`init_module` rejects it. -/
theorem leader_rejected : RulesMet [⟨true, true, false, false, false⟩] ∧
    initCalls 1 upLaunch 0 false ([⟨true, true, false, false, false⟩].map DaemonFlags.word) =
      ([], .rejected 0) ∧
    ¬ImplementsFlags 1 [⟨true, true, false, false, false⟩] := by
  have hrules : RulesMet [⟨true, true, false, false, false⟩] := by
    refine ⟨fun i f hi _ => ?_, fun _ => by simp, fun _ => ⟨_, List.mem_cons_self, rfl⟩⟩
    cases i with
    | zero => rfl
    | succ i => cases hi
  refine ⟨hrules, by decide, fun himp => ?_⟩
  exact (himp upLaunch (upLaunch_succeeds 1)).1.mp (by decide) hrules

end Comsg.Proofs.Coprocd
