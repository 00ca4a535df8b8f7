import Comsg.Libcomsg.UkernCalls

/-!
# `Comsg.Proofs.Libcomsg.UkernCalls`: when a call to the microkernel terminates

A thread without an SCB for a function fills its table first, by calls of `coselect`, `codiscover`
and `codiscover2`. Each of these needs an SCB of its own. `init_new_thread_calls` takes those of
the process over for `CODISCOVER` and `CODISCOVER2`, and by a slip not for `COSELECT`. So a thread
that has no SCB for `COSELECT` can get one only by `codiscover2`, when the process knows the
services (`Open`). Otherwise it calls `coselect` to look the services up, which calls
`init_new_thread_calls` again, without end (`stuck_of_unprepared`).

A call in an open state returns (`ends_of_open`). One in a state where `codiscover2` has a service
and no SCB ends the process (`NoScb`). `ukern_call_terminates_iff` puts these together.
-/

set_option autoImplicit false

namespace Comsg.Proofs.Libcomsg

open Comsg.Lib
open Comsg.Lib.Fueled
open Comsg.Libcomsg

/-- The answers of the services that a thread is set up with. -/
def GoodReply (r : UkernRequest) (reply : UkernReply) : Prop :=
  reply.error = none ∧
    match r with
    | .coselect _    => ∃ obj s, reply.nsobj = some obj ∧ obj.coservice = some s
    | .codiscover _  => reply.coservice ≠ none ∧ reply.scbCap ≠ none
    | .codiscover2 _ => reply.scbCap ≠ none
    | .other _ _ _   => True

/-- Every `coselect`, `codiscover` and `codiscover2` request succeeds. -/
def Succeeds {ε : Type} (cocall : ε → TargetedCall → CallOutcome × ε) : Prop :=
  ∀ env c, isCoreCall c.request.func = true →
    ∃ reply env', cocall env c = (.returned reply, env') ∧ GoodReply c.request reply

section Specs
variable {ε : Type} {cocall : ε → TargetedCall → CallOutcome × ε}
  {call : UkernRequest → Ukern ε (Option UkernReply)} {t t' : Thread ε} {r : UkernRequest}
  {func : CocallNum}

/-- Nothing that the thread has is lost. -/
structure Extends (t t' : Thread ε) : Prop where
  targets : ∀ f, t.targets f ≠ none → t'.targets f ≠ none
  globals : ∀ f, t.globals f ≠ none → t'.globals f ≠ none
  services : ∀ f, t.services f ≠ none → t'.services f ≠ none

theorem Extends.refl : Extends t t := ⟨fun _ => id, fun _ => id, fun _ => id⟩

theorem Extends.trans {t'' : Thread ε} (h : Extends t t') (h' : Extends t' t'') :
    Extends t t'' :=
  ⟨fun f hf => h'.targets f (h.targets f hf), fun f hf => h'.globals f (h.globals f hf),
    fun f hf => h'.services f (h.services f hf)⟩

theorem setUkernTarget_targets (scb : WorkerScb) :
    (t.setUkernTarget func (some scb)).targets func = some scb :=
  Function.update_self ..

theorem extends_setUkernTarget (scb : WorkerScb) :
    Extends t (t.setUkernTarget func (some scb)) where
  targets f hf := by
    by_cases h : f = func
    · simp [Thread.setUkernTarget, h]
    · simpa [Thread.setUkernTarget, Function.update_of_ne h] using hf
  globals f hf := by
    unfold Thread.setUkernTarget
    split
    · by_cases h : f = func
      · simp [h]
      · simpa [Function.update_of_ne h] using hf
    · exact hf
  services f hf := hf

/-- The request is answered, if the process does not end. -/
def Answered (call : UkernRequest → Ukern ε (Option UkernReply)) (t : Thread ε)
    (r : UkernRequest) : Prop :=
  Ends (call r) t fun a t' => Extends t t' ∧ ∃ reply, a = some reply ∧ GoodReply r reply

theorem coselect_ends (h : Answered call t (.coselect func)) :
    Ends (coselect call func) t fun a t' =>
      Extends t t' ∧ ∃ obj s, a = some obj ∧ obj.coservice = some s := by
  refine h.bind fun a t' ⟨hext, reply, ha, herror, obj, s, hobj, hs⟩ => ?_
  subst ha
  simp only [herror, hobj]
  exact .ret ⟨hext, obj, s, rfl, hs⟩

theorem codiscover_ends {obj : ServiceObject} (h : Answered call t (.codiscover obj)) :
    Ends (codiscover call obj) t fun a t' => Extends t t' ∧ a.1 ≠ none ∧ a.2 ≠ none := by
  refine h.bind fun a t' ⟨hext, reply, ha, herror, hservice, hscb⟩ => ?_
  subst ha
  simp only [herror]
  exact .ret ⟨hext, hservice, hscb⟩

theorem codiscover2_ends {s : UkernService} (h : Answered call t (.codiscover2 s)) :
    Ends (codiscover2 call s) t fun a t' => Extends t t' ∧ a ≠ none := by
  refine h.bind fun a t' ⟨hext, reply, ha, herror, hscb⟩ => ?_
  subst ha
  simp only [herror]
  exact .ret ⟨hext, hscb⟩

/-- The target that was found is set. -/
theorem setTarget_ends {scb : Option WorkerScb} (h : scb ≠ none) :
    Ends (modify fun t : Thread ε => t.setUkernTarget func scb) t fun _ t' =>
      Extends t t' ∧ t'.targets func ≠ none ∧ t'.services = t.services := by
  obtain ⟨scb, rfl⟩ := Option.ne_none_iff_exists'.mp h
  refine .of_done rfl ⟨extends_setUkernTarget scb, ?_, rfl⟩
  rw [setUkernTarget_targets]
  exact Option.some_ne_none scb

/-- `get_ukernel_service` of a service that is known. -/
theorem getUkernelService_known {s : UkernService} (hs : t.services func = some s)
    (hd : t.targets .codiscover2 ≠ none) (hcall : Answered call t (.codiscover2 s)) :
    Ends (getUkernelService call func) t fun _ t' =>
      Extends t t' ∧ t'.targets func ≠ none ∧ t'.services func ≠ none := by
  unfold getUkernelService
  refine .get_bind ?_
  simp only [hs, if_neg hd]
  refine (codiscover2_ends hcall).bind fun scb t' ⟨hext, hscb⟩ => ?_
  rw [if_pos hscb]
  refine (setTarget_ends hscb).mono fun _ t'' ⟨hext', htarget, hservices⟩ => ?_
  refine ⟨hext.trans hext', htarget, ?_⟩
  rw [hservices]
  exact hext.services func (by simp [hs])

/-- The exchange of `get_ukernel_service`. -/
theorem extends_exchange (s : UkernService) :
    Extends t (if t.services func = none then
        { t with services := Function.update t.services func (some s) }
      else t) ∧
    (if t.services func = none then
        { t with services := Function.update t.services func (some s) }
      else t).services func ≠ none := by
  by_cases h : t.services func = none
  · simp only [if_pos h]
    refine ⟨⟨fun _ => id, fun _ => id, fun f hf => ?_⟩, by simp⟩
    by_cases hf' : f = func
    · simp [hf']
    · simpa [Function.update_of_ne hf'] using hf
  · simp only [if_neg h]
    exact ⟨.refl, h⟩

/-- `get_ukernel_service` of a service that is not known. -/
theorem getUkernelService_unknown (hs : t.services func = none)
    (hselect : Answered call t (.coselect func))
    (hdiscover : ∀ t' obj, Extends t t' → Answered call t' (.codiscover obj)) :
    Ends (getUkernelService call func) t fun _ t' =>
      Extends t t' ∧ t'.targets func ≠ none ∧ t'.services func ≠ none := by
  unfold getUkernelService
  refine .get_bind ?_
  simp only [hs]
  refine (coselect_ends hselect).bind fun a t' ⟨hext, obj, s, ha, hobj⟩ => ?_
  subst ha
  refine .modify_bind ?_
  rw [hobj]
  have hexchange : Extends t' (if t'.services func = none then
      { t' with services := Function.update t'.services func (some s) } else t') ∧ _ :=
    extends_exchange s
  generalize (if t'.services func = none then
    { t' with services := Function.update t'.services func (some s) } else t') = u at hexchange
  have hext' := hext.trans hexchange.1
  refine (codiscover_ends (hdiscover u obj hext')).bind ?_
  rintro ⟨tmp, scb⟩ t'' ⟨hext'', htmp, hscb⟩
  simp only [if_pos (And.intro htmp hscb)]
  refine (setTarget_ends hscb).mono fun _ t₃ ⟨hext₃, htarget, hservices⟩ => ?_
  refine ⟨(hext'.trans hext'').trans hext₃, htarget, ?_⟩
  rw [hservices]
  exact hext''.services func hexchange.2

/-! ### The set-up of a thread -/

/-- Core requests are answered to a thread with an SCB for them. -/
def Direct (call : UkernRequest → Ukern ε (Option UkernReply)) : Prop :=
  ∀ t r, isCoreCall r.func = true → t.targets r.func ≠ none → Answered call t r

/-- The thread has an SCB for each of the core calls. -/
structure Settled (t : Thread ε) : Prop where
  coselect : t.targets .coselect ≠ none
  codiscover : t.targets .codiscover ≠ none
  codiscover2 : t.targets .codiscover2 ≠ none

theorem Settled.mono (h : Settled t) (hext : Extends t t') : Settled t' :=
  ⟨hext.targets _ h.coselect, hext.targets _ h.codiscover, hext.targets _ h.codiscover2⟩

/-- `get_ukernel_service` in a thread that has the SCBs it needs. -/
theorem getUkernelService_ends (hcall : Direct call) (hd : t.targets .codiscover2 ≠ none)
    (hs : (t.targets .coselect ≠ none ∧ t.targets .codiscover ≠ none) ∨
      t.services func ≠ none) :
    Ends (getUkernelService call func) t fun _ t' =>
      Extends t t' ∧ t'.targets func ≠ none ∧ t'.services func ≠ none := by
  cases hservice : t.services func with
  | some s => exact getUkernelService_known hservice hd (hcall t _ rfl hd)
  | none =>
    obtain ⟨hselect, hdiscover⟩ := hs.resolve_right (not_not.mpr hservice)
    exact getUkernelService_unknown hservice (hcall t _ rfl hselect)
      fun t' obj hext => hcall t' _ rfl (hext.targets _ hdiscover)

/-- The end of `init_new_thread_calls`. -/
theorem initCore_ends (hcall : Direct call) (hd : t.targets .codiscover ≠ none)
    (hd2 : t.targets .codiscover2 ≠ none)
    (hs : t.targets .coselect ≠ none ∨
      (t.services .codiscover ≠ none ∧ t.services .coselect ≠ none)) :
    Ends (do getUkernelService call .codiscover; getUkernelService call .coselect) t
      fun _ t' => Extends t t' ∧ Settled t' := by
  have hfirst : Ends (getUkernelService call .codiscover) t fun _ t' =>
      Extends t t' ∧ t'.targets .codiscover ≠ none ∧ t'.services .codiscover ≠ none :=
    getUkernelService_ends hcall hd2 (hs.imp (fun h => ⟨h, hd⟩) And.left)
  refine hfirst.bind fun _ t' ⟨hext, hd', _⟩ => ?_
  have hd2' := hext.targets _ hd2
  have hsecond : Ends (getUkernelService call .coselect) t' fun _ t'' =>
      Extends t' t'' ∧ t''.targets .coselect ≠ none ∧ t''.services .coselect ≠ none :=
    getUkernelService_ends hcall hd2'
      (hs.imp (fun h => ⟨hext.targets _ h, hd'⟩) fun h => hext.services _ h.2)
  refine hsecond.mono fun _ t'' ⟨hext', hselect, _⟩ => ⟨hext.trans hext', hselect, ?_, ?_⟩
  · exact hext'.targets _ hd'
  · exact hext'.targets _ hd2'

/-- Nothing changes but the target of `CODISCOVER`. -/
theorem adoptCodiscover_eq (hg : t.globals .codiscover ≠ none) :
    ∃ scb, t.adoptCodiscover =
      { t with targets := Function.update t.targets .codiscover (some scb) } := by
  unfold Thread.adoptCodiscover
  split
  · obtain ⟨scb, hscb⟩ := Option.ne_none_iff_exists'.mp hg
    refine ⟨scb, ?_⟩
    simp [Thread.setUkernTarget, hscb]
  · rename_i htarget
    obtain ⟨scb, hscb⟩ := Option.ne_none_iff_exists'.mp htarget
    refine ⟨scb, ?_⟩
    rw [← hscb, Function.update_eq_self]

/-- The second one does nothing. -/
theorem adoptCodiscover_twice (hg : t.globals .codiscover ≠ none) :
    t.adoptCodiscover.adoptCodiscover = t.adoptCodiscover := by
  obtain ⟨scb, heq⟩ := adoptCodiscover_eq hg
  have htarget : t.adoptCodiscover.targets .codiscover ≠ none := by simp [heq]
  exact if_neg htarget

/-- `init_new_thread_calls` in a process with the targets that `coproc_init` sets. -/
theorem initNewThreadCalls_eq (hd : t.globals .codiscover ≠ none)
    (hs : t.globals .coselect ≠ none) :
    initNewThreadCalls call t = (do
      initCodiscover2 call
      getUkernelService call .codiscover
      getUkernelService call .coselect) t.adoptCodiscover := by
  have htest : ¬(t.globals .codiscover = none ∨ t.globals .coselect = none) := by
    simp [hd, hs]
  unfold initNewThreadCalls
  rw [get_bind, if_neg htest, modify_bind, modify_bind, adoptCodiscover_twice hd]

/-- The part for `CODISCOVER2`. `coselect` is called when the service is not known. -/
theorem initCodiscover2_ends (hcall : Direct call) (hd : t.targets .codiscover ≠ none)
    (hselect : t.targets .codiscover2 = none → ∀ t' name, Extends t t' →
      t'.targets .coselect ≠ none ∨ t'.targets .codiscover2 ≠ none →
      Answered call t' (.coselect name))
    (hscb : t.targets .coselect ≠ none ∨ t.targets .codiscover2 ≠ none ∨
      t.globals .codiscover2 ≠ none) :
    Ends (initCodiscover2 call) t fun _ t' =>
      Extends t t' ∧ t'.targets .codiscover2 ≠ none := by
  -- The service is looked up.
  have hlookup (u : Thread ε) (hext : Extends t u) (hnone : t.targets .codiscover2 = none)
      (hservice : u.services .codiscover2 = none)
      (hu : u.targets .coselect ≠ none ∨ u.targets .codiscover2 ≠ none) :
      Ends (getUkernelService call .codiscover2) u fun _ t' =>
        Extends u t' ∧ t'.targets .codiscover2 ≠ none ∧ t'.services .codiscover2 ≠ none :=
    getUkernelService_unknown hservice (hselect hnone u _ hext hu)
      fun t' obj hext' => hcall t' _ rfl (hext'.targets _ (hext.targets _ hd))
  unfold initCodiscover2
  refine .get_bind ?_
  by_cases hnone : t.targets .codiscover2 = none
  · rw [if_pos hnone]
    by_cases hglobal : t.globals .codiscover2 = none
    · rw [if_pos hglobal]
      by_cases hservice : t.services .codiscover2 = none
      · rw [if_neg (not_not.mpr hservice)]
        have hs : t.targets .coselect ≠ none := by simpa [hnone, hglobal] using hscb
        exact (hlookup t .refl hnone hservice (.inl hs)).mono
          fun _ t' ⟨hext, htarget, _⟩ => ⟨hext, htarget⟩
      · rw [if_pos hservice]
        exact .of_exited rfl
    · rw [if_neg hglobal]
      obtain ⟨scb, hscb'⟩ := Option.ne_none_iff_exists'.mp hglobal
      refine .modify_bind ?_
      rw [hscb']
      have hext : Extends t (t.setUkernTarget .codiscover2 (some scb)) :=
        extends_setUkernTarget scb
      have htarget : (t.setUkernTarget .codiscover2 (some scb)).targets .codiscover2 ≠ none := by
        rw [setUkernTarget_targets]
        exact Option.some_ne_none scb
      generalize t.setUkernTarget .codiscover2 (some scb) = u at hext htarget
      have hget : Ends (getUkernelService call .codiscover2) u fun _ t' =>
          Extends u t' ∧ t'.targets .codiscover2 ≠ none ∧ t'.services .codiscover2 ≠ none := by
        by_cases hservice : u.services .codiscover2 = none
        · exact hlookup u hext hnone hservice (.inr htarget)
        · exact getUkernelService_ends hcall htarget (.inr hservice)
      exact hget.mono fun _ t' ⟨hext', htarget', _⟩ => ⟨hext.trans hext', htarget'⟩
  · rw [if_neg hnone]
    exact .ret ⟨.refl, hnone⟩

/-- The thread has an SCB for `COSELECT`, or it gets one from a service that is known. -/
def Open (t : Thread ε) : Prop :=
  t.targets .coselect ≠ none ∨
    (t.services .codiscover ≠ none ∧ t.services .coselect ≠ none ∧
      (t.targets .codiscover2 ≠ none ∨ t.globals .codiscover2 ≠ none))

/-- `coproc_init` has completed in some thread. -/
def Initialised (t : Thread ε) : Prop :=
  t.globals .codiscover ≠ none ∧ t.globals .coselect ≠ none

theorem Open.mono (h : Open t) (hext : Extends t t') : Open t' := by
  rcases h with h | ⟨hd, hs, h | h⟩
  · exact .inl (hext.targets _ h)
  · exact .inr ⟨hext.services _ hd, hext.services _ hs, .inl (hext.targets _ h)⟩
  · exact .inr ⟨hext.services _ hd, hext.services _ hs, .inr (hext.globals _ h)⟩

theorem Initialised.mono (h : Initialised t) (hext : Extends t t') : Initialised t' :=
  ⟨hext.globals _ h.1, hext.globals _ h.2⟩

/-- `init_new_thread_calls` in an open state. -/
theorem initNewThreadCalls_ends (hcall : Direct call) (hopen : Open t) (hinit : Initialised t)
    (hselect : t.targets .codiscover2 = none → ∀ t' name, Extends t t' →
      t'.targets .coselect ≠ none ∨ t'.targets .codiscover2 ≠ none →
      Answered call t' (.coselect name)) :
    Ends (initNewThreadCalls call) t fun _ t' => Extends t t' ∧ Settled t' := by
  obtain ⟨scb, heq⟩ := adoptCodiscover_eq hinit.1
  have hext : Extends t t.adoptCodiscover := by
    rw [heq]
    refine ⟨fun f hf => ?_, fun _ => id, fun _ => id⟩
    by_cases h : f = .codiscover
    · simp [h]
    · simpa [Function.update_of_ne h] using hf
  have hd : t.adoptCodiscover.targets .codiscover ≠ none := by simp [heq]
  have hd2 : t.adoptCodiscover.targets .codiscover2 = t.targets .codiscover2 := by simp [heq]
  have hopen' := hopen.mono hext
  unfold Ends
  rw [initNewThreadCalls_eq hinit.1 hinit.2]
  generalize t.adoptCodiscover = u at hext hd hd2 hopen'
  have hfirst : Ends (initCodiscover2 call) u fun _ t' =>
      Extends u t' ∧ t'.targets .codiscover2 ≠ none := by
    refine initCodiscover2_ends hcall hd (fun hnone t' name hext' hscb => ?_) ?_
    · exact hselect (hd2.symm.trans hnone) t' name (hext.trans hext') hscb
    · exact hopen'.imp_right fun h => h.2.2
  refine hfirst.bind fun _ v ⟨hextv, hd2v⟩ => ?_
  have hcore := initCore_ends hcall (hextv.targets _ hd) hd2v
    (((hopen'.mono hextv)).imp_right fun h => ⟨h.1, h.2.1⟩)
  exact hcore.mono fun _ t' ⟨hext', hsettled⟩ => ⟨(hext.trans hextv).trans hext', hsettled⟩

/-! ### Calls -/

/-- A call changes `errno` and the environment, and nothing else. -/
theorem callUkernTarget_kept (cocall : ε → TargetedCall → CallOutcome × ε) (r : UkernRequest)
    (t : Thread ε) :
    ∃ a errno env, callUkernTarget cocall r t = .done a { t with errno := errno, env := env } := by
  unfold callUkernTarget
  simp only
  split
  · exact ⟨none, _, _, rfl⟩
  · split
    · exact ⟨none, _, _, rfl⟩
    · exact ⟨some _, _, _, rfl⟩

theorem extends_kept {errno : CallErrno} {env : ε} :
    Extends t { t with errno := errno, env := env } :=
  ⟨fun _ => id, fun _ => id, fun _ => id⟩

/-- A core request through an SCB. -/
theorem callUkernTarget_core (hsucceeds : Succeeds cocall) (hcore : isCoreCall r.func = true)
    (htarget : t.targets r.func ≠ none) :
    ∃ reply env, callUkernTarget cocall r t =
      .done (some reply) { t with errno := .clear, env := env } ∧ GoodReply r reply := by
  obtain ⟨scb, hscb⟩ := Option.ne_none_iff_exists'.mp htarget
  unfold callUkernTarget
  simp only [hscb]
  generalize hc : TargetedCall.mk scb _ _ r = c
  have hreq : c.request = r := by rw [← hc]
  obtain ⟨reply, env, heq, hgood⟩ := hsucceeds t.env c (by rw [hreq]; exact hcore)
  rw [heq]
  exact ⟨reply, env, rfl, hreq ▸ hgood⟩

/-- A worker that answers ends the loop. -/
theorem callUkernService_reply {reply : UkernReply}
    (h : callUkernTarget cocall r t = .done (some reply) t') (fuel : Nat)
    (scb : Option WorkerScb) :
    callUkernService cocall call r (fuel + 1) scb t = .done (some reply) t' := by
  unfold callUkernService
  rw [bind_done h]
  rfl

/-- `ukern_call` for a function with an SCB. -/
theorem ukernCallBody_target (htarget : t.targets r.func ≠ none) (fuel : Nat) :
    ukernCallBody cocall call fuel r t = callUkernService cocall call r fuel none t := by
  have hprepare : prepareTarget call r.func t = .done () t := by
    unfold prepareTarget
    rw [get_bind, if_neg htarget]
    rfl
  exact bind_done hprepare

theorem ukernCall_reply {reply : UkernReply} (htarget : t.targets r.func ≠ none)
    (h : callUkernTarget cocall r t = .done (some reply) t') (fuel : Nat) :
    ukernCall cocall (fuel + 2) r t = .done (some reply) t' := by
  rw [ukernCall, ukernCallBody_target htarget, callUkernService_reply h]

theorem ukernCall_core (hsucceeds : Succeeds cocall) (hcore : isCoreCall r.func = true)
    (htarget : t.targets r.func ≠ none) (fuel : Nat) :
    ∃ reply env, ukernCall cocall (fuel + 2) r t =
      .done (some reply) { t with errno := .clear, env := env } ∧ GoodReply r reply := by
  obtain ⟨reply, env, heq, hgood⟩ := callUkernTarget_core hsucceeds hcore htarget
  exact ⟨reply, env, ukernCall_reply htarget heq fuel, hgood⟩

/-- A thread with the SCB gets an answer from depth 2 on. -/
theorem direct_ukernCall (hsucceeds : Succeeds cocall) (fuel : Nat) :
    Direct (ukernCall cocall (fuel + 2)) := by
  intro t r hcore htarget
  obtain ⟨reply, env, heq, hgood⟩ := ukernCall_core hsucceeds hcore htarget fuel
  exact .of_done heq ⟨extends_kept, reply, rfl, hgood⟩

/-- A thread without an SCB for a core call is to be set up. -/
theorem shouldInitThread_core (hinit : Initialised t) (hcore : isCoreCall func = true)
    (hnone : t.targets func = none) : t.shouldInitThread = true := by
  cases func <;> simp [Thread.shouldInitThread, hinit.1, hinit.2, hnone, isCoreCall] at hcore ⊢

/-- A function gets its SCB, when the thread is set up for that. -/
theorem prepareTarget_ends (hcall : Direct call) (hinit : Initialised t)
    (hnone : t.targets func = none)
    (hset : t.shouldInitThread = true →
      Ends (initNewThreadCalls call) t fun _ t' => Extends t t' ∧ Settled t') :
    Ends (prepareTarget call func) t fun _ t' =>
      Extends t t' ∧ Settled t' ∧ t'.targets func ≠ none := by
  have htest : ¬(t.globals .codiscover = none ∨ t.globals .coselect = none) := by
    simp [hinit.1, hinit.2]
  have hget (u : Thread ε) (hext : Extends t u) (hsettled : Settled u) :
      Ends (getUkernelService call func) u fun _ t' =>
        Extends t t' ∧ Settled t' ∧ t'.targets func ≠ none := by
    have hends : Ends (getUkernelService call func) u _ := getUkernelService_ends hcall
      hsettled.codiscover2 (.inl ⟨hsettled.coselect, hsettled.codiscover⟩)
    exact hends.mono fun _ t' ⟨hext', htarget, _⟩ =>
      ⟨hext.trans hext', hsettled.mono hext', htarget⟩
  unfold prepareTarget
  refine .get_bind ?_
  rw [if_pos hnone, if_neg htest]
  by_cases hshould : t.shouldInitThread = true
  · rw [if_pos hshould]
    exact (hset hshould).bind fun _ u ⟨hext, hsettled⟩ => hget u hext hsettled
  · rw [if_neg hshould]
    refine hget t .refl ⟨?_, ?_, ?_⟩
    all_goals
      intro hno
      exact hshould (shouldInitThread_core hinit rfl hno)

/-- A core request, in a thread that is set up for it. -/
theorem answered_body {fuel : Nat} (hsucceeds : Succeeds cocall) (hcall : Direct call)
    (hinit : Initialised t) (hcore : isCoreCall r.func = true)
    (hset : Ends (initNewThreadCalls call) t fun _ t' => Extends t t' ∧ Settled t') :
    Answered (ukernCallBody cocall call (fuel + 1)) t r := by
  have hservice (u : Thread ε) (hext : Extends t u) (htarget : u.targets r.func ≠ none) :
      Ends (callUkernService cocall call r (fuel + 1) none) u fun a t' =>
        Extends t t' ∧ ∃ reply, a = some reply ∧ GoodReply r reply := by
    obtain ⟨reply, env, heq, hgood⟩ := callUkernTarget_core hsucceeds hcore htarget
    exact .of_done (callUkernService_reply heq fuel none)
      ⟨hext.trans extends_kept, reply, rfl, hgood⟩
  by_cases hnone : t.targets r.func = none
  · exact (prepareTarget_ends hcall hinit hnone fun _ => hset).bind
      fun _ u ⟨hext, _, htarget⟩ => hservice u hext htarget
  · unfold Answered Ends
    rw [ukernCallBody_target hnone]
    exact hservice t .refl hnone

/-- Core requests of a thread with an SCB for `COSELECT`, or with one for `CODISCOVER2` and known
services, are answered from depth 3 on. -/
theorem answered_three (hsucceeds : Succeeds cocall) (hinit : Initialised t)
    (hcore : isCoreCall r.func = true)
    (hopen : t.targets .coselect ≠ none ∨
      (t.targets .codiscover2 ≠ none ∧ t.services .codiscover ≠ none ∧
        t.services .coselect ≠ none)) (fuel : Nat) :
    Answered (ukernCall cocall (fuel + 3)) t r := by
  have hdirect := direct_ukernCall hsucceeds fuel
  refine answered_body hsucceeds hdirect hinit hcore ?_
  refine initNewThreadCalls_ends hdirect ?_ hinit fun hnone t' name hext _ => ?_
  · exact hopen.imp_right fun ⟨hd2, hd, hs⟩ => ⟨hd, hs, .inl hd2⟩
  · have hselect := hopen.resolve_right fun h => h.1 hnone
    exact hdirect t' _ rfl (hext.targets _ hselect)

/-- Core requests in an open state are answered from depth 4 on. -/
theorem answered_four (hsucceeds : Succeeds cocall) (hinit : Initialised t)
    (hcore : isCoreCall r.func = true) (hopen : Open t) (fuel : Nat) :
    Answered (ukernCall cocall (fuel + 4)) t r := by
  have hdirect := direct_ukernCall hsucceeds (fuel + 1)
  refine answered_body hsucceeds hdirect hinit hcore ?_
  refine initNewThreadCalls_ends hdirect hopen hinit fun _ t' name hext hscb => ?_
  refine answered_three hsucceeds (hinit.mono hext) rfl ?_ fuel
  rcases hopen.mono hext with hs | ⟨hd, hs, -⟩
  · exact .inl hs
  · exact hscb.imp_right fun hd2 => ⟨hd2, hd, hs⟩

/-- `refresh_target_scb` in an open state. -/
theorem refreshTargetScb_ends (hinit : Initialised t) (hopen : Open t)
    (hcall : ∀ t' r, Initialised t' → Open t' → isCoreCall r.func = true → Answered call t' r) :
    Ends (refreshTargetScb call func) t fun a t' => Extends t t' ∧ a ≠ none := by
  unfold refreshTargetScb
  refine .get_bind ?_
  cases hs : t.services func with
  | none =>
    have hget := getUkernelService_unknown hs (hcall t _ hinit hopen rfl)
      fun t' obj hext => hcall t' (.codiscover obj) (hinit.mono hext) (hopen.mono hext) rfl
    refine hget.bind fun _ t' ⟨hext, htarget, _⟩ => ?_
    exact .get_bind (.ret ⟨hext, htarget⟩)
  | some s =>
    refine (codiscover2_ends (hcall t (.codiscover2 s) hinit hopen rfl)).bind
      fun scb t' ⟨hext, hscb⟩ => ?_
    simp only [if_pos hscb]
    refine (setTarget_ends hscb).bind fun _ t'' ⟨hext', _, _⟩ => ?_
    exact .ret ⟨hext.trans hext', hscb⟩

/-- The worker that the thread would call is busy. -/
def FirstBusy (cocall : ε → TargetedCall → CallOutcome × ε) (r : UkernRequest) (t : Thread ε) :
    Prop :=
  ∃ env, callUkernTarget cocall r t = .done none { t with errno := .ebusy, env := env }

/-- The loop ends when the worker is not busy. -/
theorem callUkernService_first {scb : Option WorkerScb} {fuel : Nat}
    (h : ¬FirstBusy cocall r t) :
    Ends (callUkernService cocall call r (fuel + 1) scb) t fun _ _ => True := by
  obtain ⟨a, errno, env, heq⟩ := callUkernTarget_kept cocall r t
  unfold callUkernService Ends
  rw [bind_done heq]
  cases a with
  | some reply => trivial
  | none =>
    have hidle : errno ≠ .ebusy := by
      rintro rfl
      exact h ⟨env, heq⟩
    simp only [Fueled.get_bind, hidle, if_false]
    trivial

/-- The loop, when the first worker is busy. -/
theorem callUkernService_busy {fuel : Nat} {env : ε}
    (h : callUkernTarget cocall r t = .done none { t with errno := .ebusy, env := env }) :
    callUkernService cocall call r (fuel + 1) none t =
      (do let scb ← refreshTargetScb call r.func
          callUkernService cocall call r fuel scb) { t with errno := .ebusy, env := env } := by
  rw [callUkernService, bind_done h]
  rfl

/-- The loop ends after its second round, as it has a replacement then. -/
theorem callUkernService_again {scb : WorkerScb} {fuel : Nat}
    (hrefresh : ∀ errno env, Ends (refreshTargetScb call r.func)
      { t with errno := errno, env := env } fun _ _ => True) :
    Ends (callUkernService cocall call r (fuel + 1) (some scb)) t fun _ _ => True := by
  by_cases hfirst : FirstBusy cocall r t
  · obtain ⟨env, heq⟩ := hfirst
    unfold callUkernService Ends
    rw [bind_done heq]
    refine (hrefresh .ebusy env).bind fun new t' _ => ?_
    by_cases hsame : new = some scb
    · simp only [hsame, if_true]
      exact .modify_bind (.ret trivial)
    · simp only [hsame, if_false]
      exact .ret trivial
  · exact callUkernService_first hfirst

theorem callUkernService_ends (hinit : Initialised t) (hopen : Open t)
    (hcall : ∀ t' r, Initialised t' → Open t' → isCoreCall r.func = true → Answered call t' r)
    (fuel : Nat) :
    Ends (callUkernService cocall call r (fuel + 2) none) t fun _ _ => True := by
  by_cases hfirst : FirstBusy cocall r t
  · obtain ⟨env, heq⟩ := hfirst
    have hext : Extends t { t with errno := .ebusy, env := env } := extends_kept
    have hrefresh : Ends (refreshTargetScb call r.func)
        { t with errno := .ebusy, env := env } _ :=
      refreshTargetScb_ends (hinit.mono hext) (hopen.mono hext) hcall
    unfold Ends
    rw [callUkernService_busy heq]
    refine hrefresh.bind fun scb t' ⟨hext', hscb⟩ => ?_
    obtain ⟨scb, rfl⟩ := Option.ne_none_iff_exists'.mp hscb
    -- The second round has a replacement, so that it is the last one.
    refine callUkernService_again fun errno env => ?_
    have hkept : Extends t { t' with errno := errno, env := env } :=
      (hext.trans hext').trans extends_kept
    exact (refreshTargetScb_ends (hinit.mono hkept) (hopen.mono hkept) hcall).mono
      fun _ _ _ => trivial
  · exact callUkernService_first hfirst

/-- Every call in an open state terminates at depth 5. -/
theorem ends_of_open (hsucceeds : Succeeds cocall) (hinit : Initialised t) (hopen : Open t)
    (r : UkernRequest) : Ends (ukernCall cocall 5 r) t fun _ _ => True := by
  have hdirect := direct_ukernCall hsucceeds 2
  have hcall (t' : Thread ε) (r : UkernRequest) (hinit' : Initialised t') (hopen' : Open t')
      (hcore : isCoreCall r.func = true) : Answered (ukernCall cocall 4) t' r :=
    answered_four hsucceeds hinit' hcore hopen' 0
  by_cases hnone : t.targets r.func = none
  · have hset : Ends (initNewThreadCalls (ukernCall cocall 4)) t fun _ t' =>
        Extends t t' ∧ Settled t' :=
      initNewThreadCalls_ends hdirect hopen hinit fun _ t' name hext _ =>
        hcall t' _ (hinit.mono hext) (hopen.mono hext) rfl
    exact (prepareTarget_ends hdirect hinit hnone fun _ => hset).bind fun _ t' ⟨hext, _, _⟩ =>
      callUkernService_ends (hinit.mono hext) (hopen.mono hext) hcall 2
  · unfold Ends
    rw [ukernCall, ukernCallBody_target hnone]
    exact callUkernService_ends hinit hopen hcall 2

/-! ### A service without an SCB -/

/-- The process knows the service of `CODISCOVER2` and has no SCB for it, and the thread has none
for `COSELECT`. -/
structure NoScb (t : Thread ε) : Prop where
  coselect : t.targets .coselect = none
  target : t.targets .codiscover2 = none
  global : t.globals .codiscover2 = none
  service : t.services .codiscover2 ≠ none

theorem prepareTarget_init (hinit : Initialised t) (hselect : t.targets .coselect = none)
    (hnone : t.targets func = none) :
    prepareTarget call func t =
      (do initNewThreadCalls call; getUkernelService call func) t := by
  have htest : ¬(t.globals .codiscover = none ∨ t.globals .coselect = none) := by
    simp [hinit.1, hinit.2]
  have hshould : t.shouldInitThread = true := shouldInitThread_core hinit rfl hselect
  unfold prepareTarget
  rw [Fueled.get_bind, if_pos hnone, if_neg htest, if_pos hshould]

theorem exited_of_noScb (hinit : Initialised t) (h : NoScb t) (hnone : t.targets r.func = none)
    (fuel : Nat) : ukernCall cocall (fuel + 1) r t = .exited := by
  obtain ⟨scb, heq⟩ := adoptCodiscover_eq hinit.1
  have hcodiscover2 : initCodiscover2 (ukernCall cocall fuel) t.adoptCodiscover = .exited := by
    unfold initCodiscover2
    simp [heq, h.target, h.global, h.service]
  have hset : initNewThreadCalls (ukernCall cocall fuel) t = .exited := by
    rw [initNewThreadCalls_eq hinit.1 hinit.2]
    exact bind_exited hcodiscover2
  have hprepare : prepareTarget (ukernCall cocall fuel) r.func t = .exited := by
    rw [prepareTarget_init hinit h.coselect hnone]
    exact bind_exited hset
  exact bind_exited hprepare

theorem refresh_exited_of_noScb (hinit : Initialised t) (h : NoScb t) (fuel : Nat) :
    refreshTargetScb (ukernCall cocall (fuel + 1)) func t = .exited := by
  unfold refreshTargetScb
  rw [Fueled.get_bind]
  cases hs : t.services func with
  | none =>
    refine bind_exited ?_
    unfold getUkernelService
    rw [Fueled.get_bind, hs]
    have hselect : ukernCall cocall (fuel + 1) (.coselect func) t = .exited :=
      exited_of_noScb (r := .coselect func) hinit h h.coselect fuel
    exact bind_exited (bind_exited hselect)
  | some s =>
    have hdiscover : ukernCall cocall (fuel + 1) (.codiscover2 s) t = .exited :=
      exited_of_noScb (r := .codiscover2 s) hinit h h.target fuel
    exact bind_exited (bind_exited hdiscover)

/-! ### Calls without end -/

/-- The thread has no SCB for `COSELECT` and no way to get one. -/
structure Unprepared (t : Thread ε) : Prop where
  closed : ¬Open t
  scb : ¬NoScb t

/-- The thread has no SCB for `COSELECT`, and has to look up the services that could give it one. -/
structure Lost (t : Thread ε) : Prop where
  coselect : t.targets .coselect = none
  target : t.targets .codiscover2 ≠ none
  services : t.services .codiscover = none ∨ t.services .coselect = none

theorem Lost.unprepared (h : Lost t) : Unprepared t := by
  refine ⟨?_, fun hno => h.target hno.target⟩
  rintro (hs | ⟨hd, hs, -⟩)
  · exact hs h.coselect
  · exact h.services.elim hd hs

theorem Unprepared.coselect (h : Unprepared t) : t.targets .coselect = none := by
  by_contra hs
  exact h.closed (.inl hs)

/-- A thread that is not prepared and has an SCB for `CODISCOVER2`, or gets one, is lost. -/
theorem Unprepared.services (h : Unprepared t)
    (hscb : t.targets .codiscover2 ≠ none ∨ t.globals .codiscover2 ≠ none) :
    t.services .codiscover = none ∨ t.services .coselect = none := by
  by_contra hno
  rw [not_or] at hno
  exact h.closed (.inr ⟨hno.1, hno.2, hscb⟩)

/-- A core request through an SCB uses up its fuel, or it is answered. -/
theorem stuck_or_answered (hsucceeds : Succeeds cocall) (hcore : isCoreCall r.func = true)
    (htarget : t.targets r.func ≠ none) (fuel : Nat) :
    ukernCall cocall fuel r t = .stuck ∨
      ∃ reply env, ukernCall cocall fuel r t =
        .done (some reply) { t with errno := .clear, env := env } ∧ GoodReply r reply := by
  match fuel with
  | 0 => exact .inl rfl
  | 1 =>
    refine .inl ?_
    rw [ukernCall, ukernCallBody_target htarget]
    rfl
  | fuel + 2 => exact .inr (ukernCall_core hsucceeds hcore htarget fuel)

/-- `get_ukernel_service` of a service that has to be looked up. -/
theorem getUkernelService_stuck (hs : t.services func = none)
    (hcall : call (.coselect func) t = .stuck) : getUkernelService call func t = .stuck := by
  unfold getUkernelService
  rw [Fueled.get_bind, hs]
  exact bind_stuck (bind_stuck hcall)

/-- `get_ukernel_service` of a service that is known. -/
theorem getUkernelService_stuck_or (hsucceeds : Succeeds cocall)
    (hs : t.services func ≠ none) (hd2 : t.targets .codiscover2 ≠ none) (fuel : Nat) :
    getUkernelService (ukernCall cocall fuel) func t = .stuck ∨
      ∃ scb env, getUkernelService (ukernCall cocall fuel) func t =
        .done () (({ t with errno := .clear, env := env } : Thread ε).setUkernTarget func
          (some scb)) := by
  obtain ⟨s, hs⟩ := Option.ne_none_iff_exists'.mp hs
  unfold getUkernelService
  rw [Fueled.get_bind, hs]
  simp only [if_neg hd2]
  rcases stuck_or_answered (r := .codiscover2 s) hsucceeds rfl hd2 fuel with
    hstuck | ⟨reply, env, heq, herror, hscb⟩
  · exact .inl (bind_stuck (bind_stuck hstuck))
  · obtain ⟨scb, hscb⟩ := Option.ne_none_iff_exists'.mp hscb
    refine .inr ⟨scb, env, ?_⟩
    have hdiscover : codiscover2 (ukernCall cocall fuel) s t =
        .done (some scb) { t with errno := .clear, env := env } := by
      unfold codiscover2
      rw [bind_done heq]
      simp [herror, hscb]
    rw [bind_done hdiscover]
    rfl

/-- What `get_ukernel_service` does to a thread that is lost. -/
theorem Lost.setUkernTarget {errno : CallErrno} {env : ε} (h : Lost t) (hne : func ≠ .coselect)
    (scb : WorkerScb) :
    Lost (({ t with errno := errno, env := env } : Thread ε).setUkernTarget func (some scb)) where
  coselect := by
    show Function.update t.targets func (some scb) .coselect = none
    rw [Function.update_of_ne hne.symm]
    exact h.coselect
  target := (extends_setUkernTarget scb).targets _ h.target
  services := h.services

/-- The end of `init_new_thread_calls`, in a thread that is lost. -/
theorem initCore_stuck {fuel : Nat} (hsucceeds : Succeeds cocall)
    (hcall : ∀ t' name, Initialised t' → Unprepared t' →
      ukernCall cocall fuel (.coselect name) t' = .stuck)
    (hinit : Initialised t) (h : Lost t) :
    (do getUkernelService (ukernCall cocall fuel) .codiscover
        getUkernelService (ukernCall cocall fuel) .coselect) t = .stuck := by
  by_cases hs : t.services .codiscover = none
  · exact bind_stuck (getUkernelService_stuck hs (hcall t _ hinit h.unprepared))
  · rcases getUkernelService_stuck_or hsucceeds hs h.target fuel with hstuck | ⟨scb, env, heq⟩
    · exact bind_stuck hstuck
    · have hlost : Lost (({ t with errno := .clear, env := env } : Thread ε).setUkernTarget
          .codiscover (some scb)) := h.setUkernTarget (by decide) scb
      have hkept : Extends t { t with errno := .clear, env := env } := extends_kept
      rw [bind_done heq]
      exact getUkernelService_stuck (h.services.resolve_left hs)
        (hcall _ _ (hinit.mono (hkept.trans (extends_setUkernTarget scb))) hlost.unprepared)

/-- The part for `CODISCOVER2`, in a thread that is not prepared. -/
theorem initCodiscover2_stuck {fuel : Nat} (hsucceeds : Succeeds cocall)
    (hcall : ∀ t' name, Initialised t' → Unprepared t' →
      ukernCall cocall fuel (.coselect name) t' = .stuck)
    (hinit : Initialised t) (h : Unprepared t) :
    initCodiscover2 (ukernCall cocall fuel) t = .stuck ∨
      ∃ t', initCodiscover2 (ukernCall cocall fuel) t = .done () t' ∧ Initialised t' ∧
        Lost t' := by
  unfold initCodiscover2
  rw [Fueled.get_bind]
  by_cases hnone : t.targets .codiscover2 = none
  · rw [if_pos hnone]
    by_cases hglobal : t.globals .codiscover2 = none
    · have hservice : t.services .codiscover2 = none := by
        by_contra hservice
        exact h.scb ⟨h.coselect, hnone, hglobal, hservice⟩
      rw [if_pos hglobal, if_neg (not_not.mpr hservice)]
      exact .inl (getUkernelService_stuck hservice (hcall t _ hinit h))
    · obtain ⟨scb, hscb⟩ := Option.ne_none_iff_exists'.mp hglobal
      rw [if_neg hglobal, Fueled.modify_bind, hscb]
      have hext : Extends t (t.setUkernTarget .codiscover2 (some scb)) :=
        extends_setUkernTarget scb
      have hlost : Lost (t.setUkernTarget .codiscover2 (some scb)) := by
        refine ⟨?_, ?_, h.services (.inr hglobal)⟩
        · show Function.update t.targets .codiscover2 (some scb) .coselect = none
          rw [Function.update_of_ne (by decide)]
          exact h.coselect
        · rw [setUkernTarget_targets]
          exact Option.some_ne_none scb
      -- From here on only the three facts about the thread count.
      generalize t.setUkernTarget .codiscover2 (some scb) = u at hext hlost
      have hinit' := hinit.mono hext
      by_cases hservice : u.services .codiscover2 = none
      · exact .inl (getUkernelService_stuck hservice (hcall u _ hinit' hlost.unprepared))
      · rcases getUkernelService_stuck_or hsucceeds hservice hlost.target fuel with
          hstuck | ⟨scb', env, heq⟩
        · exact .inl hstuck
        · exact .inr ⟨_, heq, hinit'.mono (extends_kept.trans (extends_setUkernTarget scb')),
            hlost.setUkernTarget (by decide) scb'⟩
  · rw [if_neg hnone]
    exact .inr ⟨t, rfl, hinit, h.coselect, hnone, h.services (.inl hnone)⟩

/-- `init_new_thread_calls` in a thread that is not prepared. -/
theorem initNewThreadCalls_stuck {fuel : Nat} (hsucceeds : Succeeds cocall)
    (hcall : ∀ t' name, Initialised t' → Unprepared t' →
      ukernCall cocall fuel (.coselect name) t' = .stuck)
    (hinit : Initialised t) (h : Unprepared t) :
    initNewThreadCalls (ukernCall cocall fuel) t = .stuck := by
  obtain ⟨scb, heq⟩ := adoptCodiscover_eq hinit.1
  have hinit' : Initialised t.adoptCodiscover := by
    rw [heq]
    exact hinit
  have hunprepared : Unprepared t.adoptCodiscover := by
    rw [heq]
    refine ⟨fun hopen => h.closed ?_, fun hno => h.scb ⟨?_, ?_, hno.global, hno.service⟩⟩
    · simpa [Open] using hopen
    · simpa using hno.coselect
    · simpa using hno.target
  rw [initNewThreadCalls_eq hinit.1 hinit.2]
  rcases initCodiscover2_stuck hsucceeds hcall hinit' hunprepared with
    hstuck | ⟨t', heq', hinit'', hlost⟩
  · exact bind_stuck hstuck
  · rw [bind_done heq']
    exact initCore_stuck hsucceeds hcall hinit'' hlost

/-- No depth is enough for a call through an SCB that a thread without one for `COSELECT` has to
get first. Induction on the depth: the set-up of the thread calls `coselect`. -/
theorem stuck_of_unprepared (hsucceeds : Succeeds cocall) (hinit : Initialised t)
    (h : Unprepared t) (hnone : t.targets r.func = none) (fuel : Nat) :
    ukernCall cocall fuel r t = .stuck := by
  induction fuel generalizing t r with
  | zero => rfl
  | succ fuel ih =>
    -- The depth below is not enough for `coselect` either, as it has no SCB.
    have hcall (t' : Thread ε) (name : CocallNum) (hinit' : Initialised t')
        (h' : Unprepared t') : ukernCall cocall fuel (.coselect name) t' = .stuck :=
      ih hinit' h' h'.coselect
    have hprepare : prepareTarget (ukernCall cocall fuel) r.func t = .stuck := by
      rw [prepareTarget_init hinit h.coselect hnone]
      exact bind_stuck (initNewThreadCalls_stuck hsucceeds hcall hinit h)
    exact bind_stuck hprepare

/-! ### A function with an SCB -/

/-- The replacement for a busy worker comes from a service and an SCB that are known. -/
theorem refreshTargetScb_known (hcall : Direct call) (hs : t.services func ≠ none)
    (hd2 : t.targets .codiscover2 ≠ none) :
    Ends (refreshTargetScb call func) t fun a t' => Extends t t' ∧ a ≠ none := by
  obtain ⟨s, hs⟩ := Option.ne_none_iff_exists'.mp hs
  unfold refreshTargetScb
  refine .get_bind ?_
  rw [hs]
  refine (codiscover2_ends (hcall t (.codiscover2 s) rfl hd2)).bind fun scb t' ⟨hext, hscb⟩ => ?_
  simp only [if_pos hscb]
  refine (setTarget_ends hscb).bind fun _ t'' ⟨hext', _, _⟩ => ?_
  exact .ret ⟨hext.trans hext', hscb⟩

theorem callUkernService_known {fuel : Nat} (hcall : Direct call)
    (hs : t.services r.func ≠ none) (hd2 : t.targets .codiscover2 ≠ none) :
    Ends (callUkernService cocall call r (fuel + 2) none) t fun _ _ => True := by
  by_cases hbusy : FirstBusy cocall r t
  · obtain ⟨env, heq⟩ := hbusy
    unfold Ends
    rw [callUkernService_busy heq]
    have hrefresh : Ends (refreshTargetScb call r.func)
        { t with errno := .ebusy, env := env } _ := refreshTargetScb_known hcall hs hd2
    refine hrefresh.bind fun scb t' ⟨hext, hscb⟩ => ?_
    obtain ⟨scb, rfl⟩ := Option.ne_none_iff_exists'.mp hscb
    refine callUkernService_again fun errno env => ?_
    have hagain : Ends (refreshTargetScb call r.func) { t' with errno := errno, env := env } _ :=
      refreshTargetScb_known hcall (hext.services _ hs) (hext.targets _ hd2)
    exact hagain.mono fun _ _ _ => trivial
  · exact callUkernService_first hbusy

/-- The replacement for a busy worker, in a thread that is not prepared. -/
theorem refreshTargetScb_stuck (hsucceeds : Succeeds cocall) (hinit : Initialised t)
    (h : Unprepared t)
    (hscb : ¬(t.services func ≠ none ∧ t.targets .codiscover2 ≠ none)) (fuel : Nat) :
    refreshTargetScb (ukernCall cocall fuel) func t = .stuck := by
  unfold refreshTargetScb
  rw [Fueled.get_bind]
  cases hs : t.services func with
  | none =>
    have hselect := stuck_of_unprepared (r := .coselect func) hsucceeds hinit h h.coselect fuel
    exact bind_stuck (getUkernelService_stuck hs hselect)
  | some s =>
    have hd2 : t.targets .codiscover2 = none := by
      by_contra hd2
      exact hscb ⟨by simp [hs], hd2⟩
    have hdiscover := stuck_of_unprepared (r := .codiscover2 s) hsucceeds hinit h hd2 fuel
    exact bind_stuck (bind_stuck hdiscover)

/-- A call of a thread that is not prepared, whose worker is busy. -/
theorem stuck_of_busy (hsucceeds : Succeeds cocall) (hinit : Initialised t) (h : Unprepared t)
    (htarget : t.targets r.func ≠ none) (hbusy : FirstBusy cocall r t)
    (hscb : ¬(t.services r.func ≠ none ∧ t.targets .codiscover2 ≠ none)) (fuel : Nat) :
    ukernCall cocall fuel r t = .stuck := by
  cases fuel with
  | zero => rfl
  | succ fuel =>
    rw [ukernCall, ukernCallBody_target htarget]
    cases fuel with
    | zero => rfl
    | succ fuel =>
      obtain ⟨env, heq⟩ := hbusy
      -- The cocall has changed no table.
      have hunprepared : Unprepared { t with errno := .ebusy, env := env } :=
        ⟨h.closed, fun hno => h.scb ⟨hno.coselect, hno.target, hno.global, hno.service⟩⟩
      have hinit' : Initialised { t with errno := .ebusy, env := env } := hinit
      rw [callUkernService_busy heq]
      exact bind_stuck (refreshTargetScb_stuck hsucceeds hinit' hunprepared hscb (fuel + 1))

/-- A call in a process with a service and no SCB for `CODISCOVER2`. -/
theorem terminates_of_noScb (hinit : Initialised t) (h : NoScb t) (r : UkernRequest) :
    ukernCall cocall 3 r t ≠ .stuck := by
  by_cases hnone : t.targets r.func = none
  · simp [exited_of_noScb hinit h hnone 2]
  · rw [ukernCall, ukernCallBody_target hnone]
    by_cases hbusy : FirstBusy cocall r t
    · obtain ⟨env, heq⟩ := hbusy
      have hno : NoScb { t with errno := .ebusy, env := env } :=
        ⟨h.coselect, h.target, h.global, h.service⟩
      have hinit' : Initialised { t with errno := .ebusy, env := env } := hinit
      rw [callUkernService_busy heq, bind_exited (refresh_exited_of_noScb hinit' hno 1)]
      simp
    · exact (callUkernService_first hbusy).ne_stuck

/-- In a process in which `coproc_init` has completed, when every `coselect`, `codiscover` and
`codiscover2` request succeeds: `ukern_call` terminates if and only if one of these holds. The
thread has an SCB for `COSELECT`, or the process knows the services of `CODISCOVER` and
`COSELECT` and there is an SCB for `CODISCOVER2`. The process knows the service of `CODISCOVER2`
and has no SCB for it, which is an error. The thread has an SCB for the function, and its worker
is not busy, or the replacement for it comes from a service and an SCB that are known. -/
theorem ukern_call_terminates_iff (hsucceeds : Succeeds cocall) (hinit : Initialised t)
    (r : UkernRequest) :
    (∃ fuel, ukernCall cocall fuel r t ≠ .stuck) ↔
      Open t ∨ NoScb t ∨ (t.targets r.func ≠ none ∧
        (¬FirstBusy cocall r t ∨
          (t.services r.func ≠ none ∧ t.targets .codiscover2 ≠ none))) := by
  constructor
  · rintro ⟨fuel, hfuel⟩
    by_contra hno
    rw [not_or, not_or] at hno
    obtain ⟨hclosed, hscb, htarget⟩ := hno
    have hunprepared : Unprepared t := ⟨hclosed, hscb⟩
    by_cases hnone : t.targets r.func = none
    · exact hfuel (stuck_of_unprepared hsucceeds hinit hunprepared hnone fuel)
    · rw [not_and, not_or, not_not] at htarget
      obtain ⟨hbusy, hknown⟩ := htarget hnone
      exact hfuel (stuck_of_busy hsucceeds hinit hunprepared hnone hbusy hknown fuel)
  · rintro (hopen | hno | ⟨htarget, hidle | ⟨hs, hd2⟩⟩)
    · exact ⟨5, (ends_of_open hsucceeds hinit hopen r).ne_stuck⟩
    · exact ⟨3, terminates_of_noScb hinit hno r⟩
    · refine ⟨2, ?_⟩
      rw [ukernCall, ukernCallBody_target htarget]
      exact (callUkernService_first hidle).ne_stuck
    · refine ⟨3, ?_⟩
      rw [ukernCall, ukernCallBody_target htarget]
      exact (callUkernService_known (direct_ukernCall hsucceeds 0) hs hd2).ne_stuck

end Specs

/-- Services that answer every request. -/
def answering (_ : Unit) (c : TargetedCall) : CallOutcome × Unit :=
  let service : UkernService := ⟨0, c.op, false⟩
  match c.request with
  | .coselect name =>
    (.returned ⟨none, some ⟨name, some service⟩, none, none, 0⟩, ())
  | .codiscover nsobj =>
    (.returned ⟨none, none, some (nsobj.coservice.getD service), some 1, 0⟩, ())
  | .codiscover2 _ => (.returned ⟨none, none, none, some 1, 0⟩, ())
  | .other _ data _ => (.returned ⟨none, none, none, none, data⟩, ())

theorem succeeds_answering : Succeeds answering := by
  intro env c hcore
  obtain ⟨scb, op, slow, r⟩ := c
  cases r with
  | coselect name => exact ⟨_, (), rfl, rfl, _, _, rfl, rfl⟩
  | codiscover nsobj => exact ⟨_, (), rfl, rfl, Option.some_ne_none _, Option.some_ne_none _⟩
  | codiscover2 s => exact ⟨_, (), rfl, rfl, Option.some_ne_none _⟩
  | other func data h =>
    rw [show (UkernRequest.other func data h).func = func from rfl, h] at hcore
    cases hcore

/-- The targets that `coproc_init` sets. -/
def coprocInitTargets : CocallNum → Option WorkerScb
  | .coinsert   => some 2
  | .codiscover => some 3
  | .coselect   => some 4
  | _           => none

/-- The thread that has called `coproc_init`, and makes the first call of the process. -/
def firstThread : Thread Unit := ⟨coprocInitTargets, coprocInitTargets, fun _ => none, .clear, ()⟩

/-- Another thread, which makes the first call of the process. -/
def secondThread : Thread Unit := ⟨fun _ => none, coprocInitTargets, fun _ => none, .clear, ()⟩

def coopenRequest : UkernRequest := .other .coopen 0 rfl

/-- The first call of the thread that has called `coproc_init` terminates. -/
theorem ukern_call_terminates_iff_first :
    ∃ fuel, ukernCall answering fuel coopenRequest firstThread ≠ .stuck :=
  (ukern_call_terminates_iff succeeds_answering ⟨by decide, by decide⟩ coopenRequest).mpr
    (.inl (.inl (by decide)))

/-- The first call of another thread does not. -/
theorem second_thread_recurses :
    Succeeds answering ∧ Initialised secondThread ∧
      ∀ fuel, ukernCall answering fuel coopenRequest secondThread = .stuck := by
  have hinit : Initialised secondThread := ⟨by decide, by decide⟩
  have hunprepared : Unprepared secondThread := by
    refine ⟨?_, fun h => h.service rfl⟩
    rintro (h | ⟨h, -, -⟩)
    · exact h rfl
    · exact h rfl
  exact ⟨succeeds_answering, hinit, stuck_of_unprepared succeeds_answering hinit hunprepared rfl⟩

end Comsg.Proofs.Libcomsg
